import TrtLlm.Lib.TrieWrites
import TrtLlm.Kv.WindowBlockManager

set_option autoImplicit false

namespace TrtLlm.Kv
open Lib

namespace BlockKey

def getNumTokens (key : BlockKey) : Nat := key.uniqueTokens.length

def shorten (key : BlockKey) (newNumTokens : Nat) : BlockKey :=
  { key with uniqueTokens := key.uniqueTokens.take newNumTokens }

end BlockKey

structure NodeMatch where
  key : BlockKey
  node : Nat
  exactMatch : Bool
deriving DecidableEq, Repr

structure NodeMatches where
  exactMatches : List NodeMatch
  partialMatches : List NodeMatch
deriving DecidableEq, Repr

-- A match without a value is not valid.
structure ValueMatch where
  key : BlockKey
  node : Nat
  value : Option Nat
  exactMatch : Bool
deriving DecidableEq, Repr

namespace LookupTree
variable (order : MatchOrder) (tree : LookupTree)

def findPartiallyMatchingNodes (node : Nat) (key : BlockKey) : List NodeMatch :=
  if key.supportsPartialMatching then
    let found := ((tree.node node).next.map fun edge => (key.numMatchingTokens edge.1, edge.2)).filter
      fun found => decide (0 < found.1)
    (order.sort found).map fun found =>
      if found.1 = key.getNumTokens then ⟨key, found.2, true⟩ else ⟨key.shorten found.1, found.2, false⟩
  else []

variable {order tree} in
theorem partial_match_child {node : Nat} {key : BlockKey} {found : NodeMatch}
    (mem : found ∈ findPartiallyMatchingNodes order tree node key) : ∃ edge ∈ (tree.node node).next, edge.2 = found.node := by
  unfold findPartiallyMatchingNodes at mem
  split at mem
  · obtain ⟨sharing, sorted, same⟩ := List.mem_map.mp mem
    have listed := (order.perm _).mem_iff.mp sorted
    obtain ⟨edge, inside, rfl⟩ := List.mem_map.mp (List.mem_of_mem_filter listed)
    refine ⟨edge, inside, ?_⟩
    split at same <;> exact congrArg NodeMatch.node same
  · cases mem

def lookupNodesFrom (allowPartialMatch : Bool) : Nat → List BlockKey → NodeMatches
  | _, [] => ⟨[], []⟩
  | prevNode, key :: rest =>
    match tree.findMatchingNode prevNode key with
    | some child =>
      let later := lookupNodesFrom allowPartialMatch child rest
      ⟨⟨key, child, true⟩ :: later.exactMatches, later.partialMatches⟩
    | none => ⟨[], if allowPartialMatch then findPartiallyMatchingNodes order tree prevNode key else []⟩

variable (pkey : List BlockKey)

def lookupNodes (allowPartialMatch : Bool) : NodeMatches :=
  lookupNodesFrom order tree allowPartialMatch 0 pkey

variable (windowSize : Int)

def valueMatch (found : NodeMatch) : ValueMatch :=
  ⟨found.key, found.node, tree.getValue found.node windowSize, found.exactMatch⟩

def lookupValues (nodeMatches : NodeMatches) (windowSize : Int) : List ValueMatch :=
  nodeMatches.exactMatches.map (valueMatch tree windowSize) ++
    ((nodeMatches.partialMatches.map (valueMatch tree windowSize)).find? fun found => found.value.isSome).toList

-- The outer none: back() of an empty vector, for the empty prefix only.
def lookupBlock (allowPartialMatch : Bool) : Option (Option Nat) :=
  let found := lookupValues tree (lookupNodes order tree pkey allowPartialMatch) windowSize
  if !allowPartialMatch then
    if found.length ≠ pkey.length then some none else found.getLast?.map fun last => last.value
  else some (found.reverse.findSome? fun entry => entry.value)

def lookupBlocksAtAllPositions : List (Option Nat) :=
  let found := (lookupValues tree (lookupNodes order tree pkey false) windowSize).map fun entry => entry.value
  found ++ List.replicate (pkey.length - found.length) none

-- An occupied slot keeps its block.
def trySetBlock (node : Nat) (windowSize : Int) (block : Nat) : LookupTree :=
  (tree.setValue node windowSize block).getD tree

def insertBlock (block : Nat) : LookupTree :=
  let inserted := tree.insertNodes pkey
  match inserted.2.getLast? with
  | none => inserted.1
  | some node => trySetBlock inserted.1 node windowSize block

def placeBlocks (windowSize : Int) : List (Nat × Option Nat) → LookupTree → LookupTree
  | [], tree => tree
  | (_, none) :: rest, tree => placeBlocks windowSize rest tree
  | (node, some block) :: rest, tree => placeBlocks windowSize rest (trySetBlock tree node windowSize block)

-- A vector of another length raises.
def insertBlocks (windowSize : Int) (blocks : List (Option Nat)) : Option LookupTree :=
  if blocks.length = pkey.length then
    let inserted := tree.insertNodes pkey
    some (placeBlocks windowSize (inserted.2.zip blocks) inserted.1)
  else none

end LookupTree

-- With the lookup node and window of every block.
structure BlockTree where
  tree : LookupTree
  lookupNode : Nat → Option (Nat × Int)

namespace BlockTree

def empty : BlockTree := ⟨Trie.empty, fun _ => none⟩

variable (s : BlockTree)

-- A free slot raises.
def detachFromLookupNode (block : Nat) : Option BlockTree :=
  match s.lookupNode block with
  | none => some s
  | some (node, windowSize) =>
    match s.tree.clearValue node windowSize with
    | none => none
    | some cleared => some ⟨cleared, Function.update s.lookupNode block none⟩

-- An occupied slot raises.
def attachToLookupNode (block node : Nat) (windowSize : Int) : Option BlockTree :=
  match s.detachFromLookupNode block with
  | none => none
  | some detached =>
    match detached.tree.setValue node windowSize block with
    | none => none
    | some set => some ⟨set, Function.update detached.lookupNode block (some (node, windowSize))⟩

def attachAt (pkey : List BlockKey) (windowSize : Int) (block : Nat) : Option BlockTree :=
  let inserted := s.tree.insertNodes pkey
  match inserted.2.getLast? with
  | none => some { s with tree := inserted.1 }
  | some node => attachToLookupNode { s with tree := inserted.1 } block node windowSize

end BlockTree

namespace Manager
variable {n : Nat} (config : WindowConfig) (m : Manager n)

-- A window's part of the lookup tree.
def blockTree : BlockTree where
  tree := m.tree
  lookupNode := fun block =>
    if known : block < n then (m.block ⟨block, known⟩).lookupNode.map fun node => (node, config.windowSize) else none

theorem block_tree_modify (id : Fin n) (tree : LookupTree) (node : Option Nat) :
    blockTree config { m.modifyBlock id fun block => { block with lookupNode := node } with tree } =
      ⟨tree, Function.update (m.blockTree config).lookupNode id (node.map fun node => (node, config.windowSize))⟩ := by
  refine congrArg (BlockTree.mk tree) (funext fun other => ?_)
  by_cases known : other < n
  · by_cases same : (⟨other, known⟩ : Fin n) = id
    · subst same
      simp [blockTree, known, block, modifyBlock, Pool.modify]
    · have apart : other ≠ id := fun equal => same (Fin.ext equal)
      simp [blockTree, known, same, apart, block, modifyBlock, Pool.modify]
  · have apart : other ≠ id := fun equal => known (equal ▸ id.isLt)
    simp [blockTree, known, apart]

theorem detach_block_tree (id : Fin n) :
    (m.detachFromLookupNode config id).map (blockTree config) = (m.blockTree config).detachFromLookupNode id := by
  have own : (m.blockTree config).lookupNode id = (m.block id).lookupNode.map fun node => (node, config.windowSize) := by
    simp [blockTree]
  rw [detachFromLookupNode, BlockTree.detachFromLookupNode, own]
  cases (m.block id).lookupNode with
  | none => rfl
  | some node =>
    simp only [Option.map_some, show (m.blockTree config).tree = m.tree from rfl]
    cases m.tree.clearValue node config.windowSize with
    | none => rfl
    | some cleared => exact congrArg some (m.block_tree_modify config id cleared none)

-- attachToLookupNode detaches the block first, which the manager's callers have done.
theorem attach_block_tree (id : Fin n) (node : Nat) (bare : (m.block id).lookupNode = none) :
    (m.attachToLookupNode config id node).map (blockTree config) =
      (m.blockTree config).attachToLookupNode id node config.windowSize := by
  have detached : (m.blockTree config).detachFromLookupNode id = some (m.blockTree config) := by
    rw [← detach_block_tree, detachFromLookupNode, bare]
    rfl
  rw [attachToLookupNode, BlockTree.attachToLookupNode, detached]
  simp only [show (m.blockTree config).tree = m.tree from rfl]
  cases m.tree.setValue node config.windowSize id with
  | none => rfl
  | some set => exact congrArg some (m.block_tree_modify config id set (some node))

end Manager

inductive TreeCall where
  | insertBlock (pkey : List BlockKey) (windowSize : Int) (block : Nat)
  | insertBlocks (pkey : List BlockKey) (windowSize : Int) (blocks : List (Option Nat))
  | attach (pkey : List BlockKey) (windowSize : Int) (block : Nat)
  | detach (block : Nat)

def BlockTree.call (s : BlockTree) : TreeCall → Option BlockTree
  | .insertBlock pkey windowSize block => some { s with tree := LookupTree.insertBlock s.tree pkey windowSize block }
  | .insertBlocks pkey windowSize blocks =>
    (LookupTree.insertBlocks s.tree pkey windowSize blocks).map fun tree => { s with tree := tree }
  | .attach pkey windowSize block => s.attachAt pkey windowSize block
  | .detach block => s.detachFromLookupNode block

def BlockTree.calls (s : BlockTree) : List TreeCall → Option BlockTree
  | [] => some s
  | call :: rest => (s.call call).bind fun next => next.calls rest

-- The blocks by key path and window, and the entry of an attached block.
structure BlockMap where
  entry : List BlockKey → Int → Option Nat
  place : Nat → Option (List BlockKey × Int)

namespace BlockMap

def empty : BlockMap := ⟨fun _ _ => none, fun _ => none⟩

variable (map : BlockMap) (pkey : List BlockKey) (windowSize : Int)

def put (block : Option Nat) : BlockMap :=
  { map with entry := fun path window => if path = pkey ∧ window = windowSize then block else map.entry path window }

def putNew (block : Nat) : BlockMap :=
  if pkey = [] ∨ (map.entry pkey windowSize).isSome = true then map else map.put pkey windowSize (some block)

def putAll (pkey : List BlockKey) (windowSize : Int) : Nat → List (Option Nat) → BlockMap → BlockMap
  | _, [], map => map
  | depth, none :: rest, map => putAll pkey windowSize (depth + 1) rest map
  | depth, some block :: rest, map =>
    putAll pkey windowSize (depth + 1) rest (map.putNew (pkey.take (depth + 1)) windowSize block)

def remove (block : Nat) : BlockMap :=
  match map.place block with
  | none => map
  | some (pkey, windowSize) => { map.put pkey windowSize none with place := Function.update map.place block none }

def move (block : Nat) : BlockMap :=
  if pkey = [] then map
  else { (map.remove block).put pkey windowSize (some block) with
    place := Function.update map.place block (some (pkey, windowSize)) }

def call : TreeCall → BlockMap
  | .insertBlock pkey windowSize block => map.putNew pkey windowSize block
  | .insertBlocks pkey windowSize blocks => putAll pkey windowSize 0 blocks map
  | .attach pkey windowSize block => map.move pkey windowSize block
  | .detach block => map.remove block

-- An attached block is not attached again at or above its place, unless that keeps something else: its removal
-- would cut the node off.
def AttachesBeside : TreeCall → Prop
  | .attach pkey _ block => ∀ path window, map.place block = some (path, window) → pkey <+: path →
      ∃ other slot, pkey <+: other ∧ (other, slot) ≠ (path, window) ∧ (map.entry other slot).isSome = true
  | _ => True

def calls : BlockMap → List TreeCall → BlockMap
  | map, [] => map
  | map, call :: rest => calls (map.call call) rest

def AllBeside : BlockMap → List TreeCall → Prop
  | _, [] => True
  | map, call :: rest => map.AttachesBeside call ∧ AllBeside (map.call call) rest

def Known : Prop := ∃ rest windowSize, (map.entry (pkey ++ rest) windowSize).isSome = true

def deepest : Option Nat :=
  ((List.range pkey.length).map fun index => map.entry (pkey.take (index + 1)) windowSize).reverse.findSome? id

structure Leaves (pkey before : List BlockKey) (key : BlockKey) : Prop where
  prefix_ : before ++ [key] <+: pkey
  known : before = [] ∨ map.Known before
  unknown : ¬map.Known (before ++ [key])

def Closest : Option Nat → Prop
  | none => ∀ before key, map.Leaves pkey before key → key.supportsPartialMatching = true →
      ∀ other, (map.entry (before ++ [other]) windowSize).isSome = true → key.numMatchingTokens other = 0
  | some block => ∃ before key own, map.Leaves pkey before key ∧ key.supportsPartialMatching = true ∧
      map.entry (before ++ [own]) windowSize = some block ∧ 0 < key.numMatchingTokens own ∧
      ∀ other, (map.entry (before ++ [other]) windowSize).isSome = true → key.numMatchingTokens other ≤ key.numMatchingTokens own

end BlockMap

def TreeCall.EndsInBlock : TreeCall → Prop
  | .insertBlocks _ _ blocks => ∀ last, blocks.getLast? = some last → last.isSome = true
  | .insertBlock _ _ _ => True
  | .attach _ _ _ => True
  | .detach _ => True

end TrtLlm.Kv
