import TrtLlm.Executor.Impl

set_option autoImplicit false

namespace TrtLlm.Executor
open List LlmRequest Impl

structure Tag where
  requestId : Nat
  parentRequestId : Nat
  sequenceIndex : Nat
  family : Nat
deriving DecidableEq, Repr

namespace Tag

def isChild (tag : Tag) : Bool := decide (0 < tag.sequenceIndex)

def responseId (tag : Tag) : Nat := if tag.isChild then tag.parentRequestId else tag.requestId

end Tag

def LlmRequest.tag (request : LlmRequest) : Tag :=
  ⟨request.requestId, request.parentRequestId, request.sequenceIndex, request.family⟩

def setMark (vecs : FinalVecs) (tag : Tag) (done : Bool) : FinalVecs :=
  vecs.modify tag.family fun vec => vec.set tag.sequenceIndex done

section Families
variable {tags : List Tag} {vecs : FinalVecs} (tag : Tag) (done : Bool) {family : Nat}

theorem mark_sequence_eq (req : LlmRequest) : markSequence vecs req = setMark vecs req.tag req.isFinished := rfl

theorem marked_at : (setMark vecs tag done)[family]? =
    vecs[family]?.map fun vec => if tag.family = family then vec.set tag.sequenceIndex done else vec :=
  getElem?_modify ..

theorem marked_value {vec : List Bool} {idx : Nat} (inside : idx < vec.length) :
    (if tag.family = family then vec.set tag.sequenceIndex done else vec)[idx]? =
      if tag.family = family ∧ tag.sequenceIndex = idx then some done else vec[idx]? := by
  by_cases same : tag.family = family
  · rw [if_pos same, getElem?_set]
    by_cases here : tag.sequenceIndex = idx <;> simp [same, here, inside]
  · simp [same]

theorem marked_found {vec : List Bool} (found : vecs[family]? = some vec) : ∃ marked,
    (setMark vecs tag done)[family]? = some marked ∧ marked.length = vec.length ∧ ∀ idx, idx < vec.length →
      marked[idx]? = if tag.family = family ∧ tag.sequenceIndex = idx then some done else vec[idx]? := by
  refine ⟨_, by rw [marked_at, found, Option.map_some], ?_, fun idx inside => marked_value tag done inside⟩
  split
  · exact length_set
  · rfl

def Answered (responses : List Response) (id : Nat) : Prop :=
  ∃ response ∈ responses, response.requestId = id ∧ response.last = true

theorem answered_append {responses : List Response} (later : List Response) {id : Nat} (answered : Answered responses id) :
    Answered (responses ++ later) id := by
  obtain ⟨resp, mem, same⟩ := answered
  exact ⟨resp, mem_append_left later mem, same⟩

def Complete (tags : List Tag) (vecs : FinalVecs) (family : Nat) : Prop :=
  ∃ vec, vecs[family]? = some vec ∧
    ∀ index, index < vec.length → vec[index]? = some true ∨ ∃ tag ∈ tags, tag.family = family ∧ tag.sequenceIndex = index

def Housed (vecs : FinalVecs) (tag : Tag) : Prop :=
  ∃ vec, vecs[tag.family]? = some vec ∧ tag.sequenceIndex < vec.length

theorem housed_lt {tag : Tag} (housed : Housed vecs tag) : tag.family < vecs.length := by
  obtain ⟨vec, found, _⟩ := housed
  exact (List.getElem?_eq_some_iff.mp found).1

theorem housed_mark {other : Tag} (housed : Housed vecs other) : Housed (setMark vecs tag done) other := by
  obtain ⟨vec, found, inside⟩ := housed
  obtain ⟨marked, there, length, _⟩ := marked_found tag done found
  exact ⟨marked, there, length ▸ inside⟩

theorem housed_append (vec : List Bool) {tag : Tag} (housed : Housed vecs tag) : Housed (vecs ++ [vec]) tag := by
  obtain ⟨own, found, inside⟩ := housed
  refine ⟨own, ?_, inside⟩
  rw [getElem?_append_left (housed_lt ⟨own, found, inside⟩)]
  exact found

theorem complete_mark {tag : Tag}
    (mem : tag ∈ tags) (complete : Complete tags vecs family) : Complete tags (setMark vecs tag done) family := by
  obtain ⟨vec, found, rest⟩ := complete
  obtain ⟨marked, there, length, values⟩ := marked_found tag done found
  refine ⟨marked, there, fun idx inside => ?_⟩
  rw [length] at inside
  rw [values idx inside]
  split
  next here => exact .inr ⟨tag, mem, here⟩
  · exact rest idx inside

theorem complete_append (vec : List Bool) (complete : Complete tags vecs family) : Complete tags (vecs ++ [vec]) family := by
  obtain ⟨own, found, rest⟩ := complete
  refine ⟨own, ?_, rest⟩
  rw [List.getElem?_append_left (List.getElem?_eq_some_iff.mp found).1]
  exact found

theorem complete_mono {more : List Tag} (sub : ∀ tag ∈ tags, tag ∈ more)
    (complete : Complete tags vecs family) : Complete more vecs family := by
  obtain ⟨vec, found, rest⟩ := complete
  refine ⟨vec, found, ?_⟩
  intro idx inside
  rcases rest idx inside with done | ⟨tag, mem, there⟩
  · exact .inl done
  · exact .inr ⟨tag, sub tag mem, there⟩

theorem complete_finish {before after : List Tag}
    (complete : Complete (before ++ tag :: after) vecs family) : Complete (before ++ after) (setMark vecs tag true) family := by
  obtain ⟨vec, found, rest⟩ := complete
  obtain ⟨marked, there, length, values⟩ := marked_found tag true found
  refine ⟨marked, there, fun idx inside => ?_⟩
  rw [length] at inside
  rw [values idx inside]
  split
  · exact .inl rfl
  next away =>
  rcases rest idx inside with done | ⟨other, mem, own⟩
  · exact .inl done
  · rcases mem_cons.mp (perm_middle.mem_iff.mp mem) with rfl | left
    · exact absurd own away
    · exact .inr ⟨other, left, own⟩

theorem all_final_iff {vec : List Bool} (found : vecs[family]? = some vec) :
    allFinal vecs family = true ↔ ∀ idx, idx < vec.length → vec[idx]? = some true := by
  rw [allFinal, getD_eq_getElem?_getD, found, Option.getD_some, all_eq_true]
  constructor
  · intro all idx inside
    rw [getElem?_eq_getElem inside, all _ (getElem_mem inside)]
  intro all done mem
  obtain ⟨idx, inside, rfl⟩ := getElem_of_mem mem
  have true' := all idx inside
  rw [getElem?_eq_getElem inside] at true'
  exact Option.some.inj true'

theorem complete_all_final (complete : Complete tags vecs family)
    (gone : ∀ tag ∈ tags, tag.family ≠ family) : allFinal vecs family = true := by
  obtain ⟨vec, found, rest⟩ := complete
  rw [all_final_iff found]
  intro idx inside
  rcases rest idx inside with done | ⟨tag, mem, there⟩
  · exact done
  · exact absurd there.1 (gone tag mem)

inductive Responds (vecs : FinalVecs) (request : LlmRequest) : Option Response → FinalVecs → LlmRequest → Prop
  | waits (unfinished : request.isFinished = false) : Responds vecs request none vecs request
  | marks (unfinished : request.isFinished = false) : Responds vecs request none (setMark vecs request.tag false) request
  | streams (unfinished : request.isFinished = false) (response : Response) (sent : LlmRequest)
      (id : response.requestId = request.responseId) (error : response.hasError = false)
      (final : response.isFinal = allFinal (setMark vecs request.tag false) request.family)
      (same : sent.tag = request.tag) :
      Responds vecs request (some response) (setMark vecs request.tag false) sent
  | finishes (finished : request.isFinished = true) (response : Response) (sent : LlmRequest)
      (id : response.requestId = request.responseId) (error : response.hasError = false)
      (final : response.isFinal = allFinal (setMark vecs request.tag true) request.family) :
      Responds vecs request (some response) (setMark vecs request.tag true) sent

theorem create_response_responds (req : LlmRequest) :
    Responds vecs req (createResponse vecs req).1 (createResponse vecs req).2.1
      (createResponse vecs req).2.2 := by
  unfold createResponse
  cases finished : req.isFinished with
  | true =>
    simp only [Bool.true_or, Bool.not_true, Bool.false_eq_true, if_false, if_true, mark_sequence_eq, finished]
    exact Responds.finishes finished _ _ rfl rfl rfl
  | false =>
    cases streaming : req.streamingInProgress with
    | false =>
      exact Responds.waits finished
    | true =>
      simp only [Bool.or_true, Bool.not_true, Bool.false_eq_true, if_false, Bool.false_or, mark_sequence_eq, finished]
      split
      · exact Responds.streams finished _ _ rfl rfl rfl rfl
      · exact Responds.marks finished

theorem insert_in_order_perm {Item : Type} (prio : Item → PriorityType) (item : Item) (list : List Item) :
    (insertRequestInOrder prio item list).Perm (item :: list) := by
  induction list with
  | nil => exact Perm.refl _
  | cons first rest ih =>
    rw [insertRequestInOrder]
    split
    · exact Perm.refl _
    · exact (ih.cons first).trans (Perm.swap item first rest)

theorem insert_each_perm {Item : Type} (prio : Item → PriorityType) (list added : List Item) :
    (added.foldl (fun list item => insertRequestInOrder prio item list) list).Perm (list ++ added) := by
  induction added generalizing list with
  | nil =>
    rw [append_nil]
    exact Perm.refl _
  | cons first rest ih =>
    refine (ih _).trans ?_
    refine ((insert_in_order_perm prio first list).append_right rest).trans ?_
    exact perm_middle.symm

end Families

def Live (tags : List Tag) (vecs : FinalVecs) (id : Nat) : Prop :=
  ∃ tag ∈ tags, tag.responseId = id ∧ Complete tags vecs tag.family

structure Owing (owed : Nat → Prop) (tags : List Tag) (vecs : FinalVecs) (responses : List Response) : Prop where
  housed : ∀ tag ∈ tags, Housed vecs tag
  kin : ∀ tag ∈ tags, ∀ other ∈ tags, tag.family = other.family → tag.responseId = other.responseId
  due : ∀ id, owed id → Live tags vecs id ∨ Answered responses id

theorem populate_rule {Books : List Tag → FinalVecs → List Response → Prop}
    (mark : ∀ tags vecs responses tag, tag ∈ tags → Books tags vecs responses → Books tags (setMark vecs tag false) responses)
    (stream : ∀ tags vecs responses tag resp, tag ∈ tags → resp.requestId = tag.responseId →
      resp.hasError = false → resp.isFinal = allFinal vecs tag.family → Books tags vecs responses →
      Books tags vecs (responses ++ [resp]))
    (finish : ∀ before after tag vecs responses resp, resp.requestId = tag.responseId →
      resp.hasError = false → resp.isFinal = allFinal (setMark vecs tag true) tag.family →
      Books (before ++ tag :: after) vecs responses → Books (before ++ after) (setMark vecs tag true) (responses ++ [resp]))
    {kept rest : List LlmRequest} {vecs : FinalVecs} {responses : List Response}
    (books : Books ((kept ++ rest).map tag) vecs responses) :
    let after := populate kept rest vecs responses
    Books (after.1.map tag) after.2.1 after.2.2 := by
  induction rest generalizing kept vecs responses with
  | nil =>
    rw [append_nil] at books
    exact books
  | cons req rest ih =>
    have responds := @create_response_responds vecs req
    rw [populate]
    have here : req.tag ∈ (kept ++ req :: rest).map tag := mem_map_of_mem (mem_append_right _ mem_cons_self)
    generalize createResponse vecs req = made at responds
    obtain ⟨resp, marked, sent⟩ := made
    dsimp only at responds ⊢
    cases responds with
    | waits unfinished =>
      rw [unfinished, if_neg Bool.false_ne_true]
      apply ih
      rw [append_assoc, Option.toList_none, append_nil]
      exact books
    | marks unfinished =>
      rw [unfinished, if_neg Bool.false_ne_true]
      apply ih
      rw [append_assoc, Option.toList_none, append_nil]
      exact mark _ _ _ _ here books
    | streams unfinished resp sent id error final same =>
      rw [unfinished, if_neg Bool.false_ne_true]
      apply ih
      have tags : ((kept ++ [sent]) ++ rest).map tag = (kept ++ req :: rest).map tag := by
        simp [same]
      rw [tags]
      exact stream _ _ _ req.tag resp here id error final (mark _ _ _ _ here books)
    | finishes finished resp sent id error final =>
      rw [finished, if_pos rfl]
      apply ih
      rw [map_append, map_cons] at books
      rw [map_append]
      exact finish _ _ req.tag _ _ resp id error final books

section
variable {vecs : FinalVecs} {tags made : List Tag} {count id : Nat}
    (family : ∀ tag ∈ made, tag.family = vecs.length ∧ tag.responseId = id ∧ tag.sequenceIndex < count)

include family

theorem family_housed (housed : ∀ tag ∈ tags, Housed vecs tag) :
    ∀ tag ∈ tags ++ made, Housed (vecs ++ [replicate count false]) tag := by
  intro tag mem
  rcases mem_append.mp mem with old | new
  · exact housed_append _ (housed tag old)
  refine ⟨replicate count false, ?_, ?_⟩
  · rw [(family tag new).1, getElem?_concat_length]
  · rw [length_replicate]
    exact (family tag new).2.2

theorem family_kin (housed : ∀ tag ∈ tags, Housed vecs tag)
    (kin : ∀ tag ∈ tags, ∀ other ∈ tags, tag.family = other.family → tag.responseId = other.responseId) :
    ∀ tag ∈ tags ++ made, ∀ other ∈ tags ++ made, tag.family = other.family → tag.responseId = other.responseId := by
  have apart : ∀ tag ∈ tags, tag.family ≠ vecs.length := fun tag mem => Nat.ne_of_lt (housed_lt (housed tag mem))
  intro tag mem other member' same
  rcases mem_append.mp mem with old | new
  · rcases mem_append.mp member' with old' | new'
    · exact kin tag old other old' same
    · exact absurd (same.trans (family other new').1) (apart tag old)
  · rcases mem_append.mp member' with old' | new'
    · exact absurd (same.symm.trans (family tag new).1) (apart other old')
    · exact (family tag new).2.1.trans (family other new').2.1.symm

theorem family_complete (tag : Tag) (mem : tag ∈ made)
    (all : ∀ idx, idx < count → ∃ tag ∈ made, tag.sequenceIndex = idx) :
    Complete (tags ++ made) (vecs ++ [replicate count false]) tag.family := by
  refine ⟨replicate count false, ?_, ?_⟩
  · rw [(family tag mem).1, getElem?_concat_length]
  intro idx inside
  rw [length_replicate] at inside
  obtain ⟨sibling, siblingMem, place⟩ := all idx inside
  refine .inr ⟨sibling, mem_append_right _ siblingMem, ?_, place⟩
  exact (family sibling siblingMem).1.trans (family tag mem).1.symm

end

section Owing
variable {owed : Nat → Prop} {vecs : FinalVecs} {responses : List Response}

theorem owing_congr {tags others : List Tag} (same : ∀ tag, tag ∈ tags ↔ tag ∈ others)
    (owing : Owing owed tags vecs responses) : Owing owed others vecs responses := by
  refine ⟨?_, ?_, ?_⟩
  · exact fun tag mem => owing.housed tag ((same tag).mpr mem)
  · exact fun tag mem other member' => owing.kin tag ((same tag).mpr mem) other ((same other).mpr member')
  intro id due
  rcases owing.due id due with ⟨tag, mem, named, complete⟩ | answered
  · refine .inl ⟨tag, (same tag).mp mem, named, ?_⟩
    exact complete_mono (fun other => (same other).mp) complete
  · exact .inr answered

theorem owing_mark {tags : List Tag} {tag : Tag} (done : Bool) (mem : tag ∈ tags)
    (owing : Owing owed tags vecs responses) : Owing owed tags (setMark vecs tag done) responses := by
  refine ⟨?_, owing.kin, ?_⟩
  · exact fun other otherMem => housed_mark tag done (owing.housed other otherMem)
  intro id due
  rcases owing.due id due with ⟨other, otherMem, named, complete⟩ | answered
  · exact .inl ⟨other, otherMem, named, complete_mark done mem complete⟩
  · exact .inr answered

theorem owing_finish {before after : List Tag} (tag : Tag) {resp : Response}
    (named : resp.requestId = tag.responseId) (final : resp.isFinal = allFinal (setMark vecs tag true) tag.family)
    (owing : Owing owed (before ++ tag :: after) vecs responses) :
    Owing owed (before ++ after) (setMark vecs tag true) (responses ++ [resp]) := by
  have sub : ∀ other ∈ before ++ after, other ∈ before ++ tag :: after :=
    fun other mem => perm_middle.mem_iff.mpr (mem_cons_of_mem _ mem)
  have here : tag ∈ before ++ tag :: after := mem_append_right _ mem_cons_self
  refine ⟨?_, ?_, ?_⟩
  · exact fun other mem => housed_mark tag true (owing.housed other (sub other mem))
  · exact fun other mem third member' => owing.kin other (sub other mem) third (sub third member')
  intro id due
  rcases owing.due id due with ⟨other, mem, otherId, complete⟩ | answered
  · have finished := complete_finish tag complete
    by_cases left : ∃ third ∈ before ++ after, third.family = other.family
    · obtain ⟨third, thirdMem, same⟩ := left
      refine .inl ⟨third, thirdMem, ?_, same ▸ finished⟩
      exact (owing.kin third (sub third thirdMem) other mem same).trans otherId
    -- Nobody of that family is left, so the sequence finished.
    have gone : ∀ third ∈ before ++ after, third.family ≠ other.family :=
      fun third thirdMem same => left ⟨third, thirdMem, same⟩
    have family : other.family = tag.family := by
      rcases mem_cons.mp (perm_middle.mem_iff.mp mem) with same | others
      · rw [same]
      · exact absurd rfl (gone other others)
    refine .inr ⟨resp, mem_append_right _ mem_cons_self, ?_, ?_⟩
    · exact named.trans ((owing.kin tag here other mem family.symm).trans otherId)
    · rw [Response.last, final, ← family,
        complete_all_final finished gone, Bool.or_true]
  · exact .inr (answered_append [resp] answered)

theorem owing_populate (kept rest : List LlmRequest) (owing : Owing owed ((kept ++ rest).map tag) vecs responses) :
    let after := populate kept rest vecs responses
    Owing owed (after.1.map tag) after.2.1 after.2.2 := by
  refine populate_rule ?_ ?_ ?_ owing
  · exact fun tags vecs responses tag mem owing => owing_mark false mem owing
  · exact fun tags vecs responses _ resp _ _ _ _ owing =>
      ⟨owing.housed, owing.kin, fun id due => (owing.due id due).imp_right (answered_append [resp])⟩
  · exact fun before after tag vecs responses resp id _ final owing =>
      owing_finish tag id final owing

theorem owing_terminate (tags : List Tag)
    (parents : ∀ tag ∈ tags, tag.isChild = true → ∃ parent ∈ tags, parent.requestId = tag.parentRequestId)
    (owing : Owing owed tags vecs responses) :
    Owing owed [] vecs (responses ++ tags.map fun tag => errorResponse tag.requestId) := by
  refine ⟨nofun, nofun, fun id due => ?_⟩
  rcases owing.due id due with ⟨tag, mem, named, _⟩ | answered
  · obtain ⟨parent, parentMem, same⟩ : ∃ parent ∈ tags, parent.requestId = id := by
      cases child : tag.isChild with
      | false =>
        rw [Tag.responseId, child, if_neg Bool.false_ne_true] at named
        exact ⟨tag, mem, named⟩
      | true =>
        rw [Tag.responseId, child, if_pos rfl] at named
        obtain ⟨parent, parentMem, same⟩ := parents tag mem child
        exact ⟨parent, parentMem, same.trans named⟩
    exact .inr ⟨errorResponse parent.requestId,
      mem_append_right _ (mem_map_of_mem (f := fun tag => errorResponse tag.requestId) parentMem), same, rfl⟩
  · exact .inr (answered_append _ answered)

theorem owing_owed {fewer : Nat → Prop} {tags : List Tag} (sub : ∀ id, fewer id → owed id)
    (owing : Owing owed tags vecs responses) : Owing fewer tags vecs responses :=
  ⟨owing.housed, owing.kin, fun id due => owing.due id (sub id due)⟩

theorem owing_family {tags made : List Tag} {id count : Nat} {later : List Response}
    (family : ∀ tag ∈ made, tag.family = vecs.length ∧ tag.responseId = id ∧ tag.sequenceIndex < count)
    (settled : Answered (responses ++ later) id ∨ (0 < count ∧ ∀ idx, idx < count → ∃ tag ∈ made, tag.sequenceIndex = idx))
    (owing : Owing owed tags vecs responses) :
    Owing (fun other => owed other ∨ other = id) (tags ++ made) (vecs ++ [replicate count false]) (responses ++ later) := by
  refine ⟨family_housed family owing.housed, family_kin family owing.housed owing.kin, ?_⟩
  rintro other (due | rfl)
  · rcases owing.due other due with ⟨tag, mem, named, complete⟩ | answered
    · refine .inl ⟨tag, mem_append_left _ mem, named, ?_⟩
      exact complete_mono (fun _ => mem_append_left _) (complete_append _ complete)
    · exact .inr (answered_append later answered)
  · rcases settled with answered | ⟨some', all⟩
    · exact .inr answered
    · obtain ⟨tag, mem, _⟩ := all 0 some'
      exact .inl ⟨tag, mem_append_right _ mem, (family tag mem).2.1, family_complete family tag mem all⟩

end Owing

theorem sub_requests_pos (request : Request) : 0 < getNumSubRequests request := by
  rw [getNumSubRequests]
  split
  · cases sequences : request.numReturnSequences with
    | none => exact Nat.one_pos
    | some count => exact request.sequences_pos count (by rw [sequences]; rfl)
  · exact Nat.one_pos

namespace Impl

theorem made_tags (s : Impl) (req : RequestWithId) (family count : Nat) (tag : Tag)
    (mem : tag ∈ ((range count).map (s.makeSequence req family)).map LlmRequest.tag) :
    tag.family = family ∧ tag.responseId = req.id ∧ tag.sequenceIndex < count := by
  rw [map_map, mem_map] at mem
  obtain ⟨idx, inside, rfl⟩ := mem
  refine ⟨rfl, ?_, mem_range.mp inside⟩
  cases idx with
  | zero => rfl
  | succ idx => rfl

theorem made_all (s : Impl) (request : RequestWithId) (family count index : Nat) (inside : index < count) :
    ∃ tag ∈ ((range count).map (s.makeSequence request family)).map LlmRequest.tag, tag.sequenceIndex = index := by
  refine ⟨(s.makeSequence request family index).tag, ?_, rfl⟩
  exact mem_map_of_mem (mem_map_of_mem (mem_range.mpr inside))

structure Fetched (s : Impl) (request : RequestWithId) (next : Impl) (made : List LlmRequest) : Prop where
  outcome : ∃ count later, 0 < count ∧
    next = { s with
      sequenceFinalVecs := s.sequenceFinalVecs ++ [List.replicate count false]
      responses := s.responses ++ later } ∧
    ((later = [] ∧ made = (List.range count).map (s.makeSequence request s.sequenceFinalVecs.length)) ∨
      (later = [errorResponse request.id] ∧ ∃ index < count,
        made = (List.range index).map (s.makeSequence request s.sequenceFinalVecs.length)))

theorem fetch_one_fetched (s : Impl) (failing : RequestWithId → Option Nat) (request : RequestWithId) :
    s.Fetched request (s.fetchOne failing request).1 (s.fetchOne failing request).2 := by
  have pos := sub_requests_pos request.req
  have success : { s with sequenceFinalVecs := s.sequenceFinalVecs ++
        [replicate (getNumSubRequests request.req) false] } =
      { s with
        sequenceFinalVecs := s.sequenceFinalVecs ++ [replicate (getNumSubRequests request.req) false]
        responses := s.responses ++ [] } := by
    rw [append_nil]
  simp only [fetchOne]
  cases failing request with
  | none => exact ⟨_, [], pos, success, .inl ⟨rfl, rfl⟩⟩
  | some index =>
    dsimp only
    split
    · next early =>
      exact ⟨_, _, pos, rfl, .inr ⟨rfl, index, early, rfl⟩⟩
    · exact ⟨_, [], pos, success, .inl ⟨rfl, rfl⟩⟩

theorem owing_fetch_one (s next : Impl) (owed : Nat → Prop) (tags : List Tag) (request : RequestWithId)
    (made : List LlmRequest) (fetched : s.Fetched request next made) (owing : Owing owed tags s.sequenceFinalVecs s.responses) :
    Owing (fun other => owed other ∨ other = request.id) (tags ++ made.map LlmRequest.tag) next.sequenceFinalVecs
      next.responses := by
  obtain ⟨count, later, pos, rfl, whole | ⟨failed, index, early, partly⟩⟩ := fetched.outcome
  · rw [whole.2]
    refine owing_family ?_ (.inr ⟨pos, ?_⟩) owing
    · exact fun tag mem => s.made_tags request _ count tag mem
    · exact fun index inside => s.made_all request _ count index inside
  rw [partly]
  refine owing_family ?_ (.inl ?_) owing
  · intro tag mem
    obtain ⟨family, named, inside⟩ := s.made_tags request _ index tag mem
    exact ⟨family, named, lt_trans inside early⟩
  · rw [failed]
    exact ⟨errorResponse request.id, mem_append_right _ mem_cons_self, rfl, rfl⟩

def SameOutside (s next : Impl) : Prop :=
  next.queuedRequests = s.queuedRequests ∧ next.returned = s.returned ∧ next.shutdown = s.shutdown ∧
    next.shutdownCalled = s.shutdownCalled ∧ next.activeRequests = s.activeRequests ∧ next.lastReqId = s.lastReqId ∧
    next.phase = s.phase

theorem outside_trans {first second third : Impl} (left : first.SameOutside second) (right : second.SameOutside third) :
    first.SameOutside third :=
  ⟨right.1.trans left.1, right.2.1.trans left.2.1, right.2.2.1.trans left.2.2.1, right.2.2.2.1.trans left.2.2.2.1,
    right.2.2.2.2.1.trans left.2.2.2.2.1, right.2.2.2.2.2.1.trans left.2.2.2.2.2.1,
    right.2.2.2.2.2.2.trans left.2.2.2.2.2.2⟩

theorem fetch_each_outside (s : Impl) (failing : RequestWithId → Option Nat) (fetched : List LlmRequest)
    (batch : List RequestWithId) (ordinary : ∀ req ∈ batch, req.id ≠ kTerminateReqId) :
    s.SameOutside (fetchEach failing s fetched batch).1 := by
  induction batch generalizing s fetched with
  | nil => exact ⟨rfl, rfl, rfl, rfl, rfl, rfl, rfl⟩
  | cons req rest ih =>
    rw [fetchEach, if_neg (ordinary req mem_cons_self)]
    have first : s.SameOutside (s.fetchOne failing req).1 := by
      obtain ⟨_, _, _, same, _⟩ := (s.fetch_one_fetched failing req).outcome
      rw [same]
      exact ⟨rfl, rfl, rfl, rfl, rfl, rfl, rfl⟩
    have later := ih (s.fetchOne failing req).1 (fetched ++ (s.fetchOne failing req).2)
      (forall_mem_cons.mp ordinary).2
    exact outside_trans first later

theorem owing_fetch_each (s : Impl) (failing : RequestWithId → Option Nat) (owed : Nat → Prop) (active : List LlmRequest)
    (fetched : List LlmRequest) (batch : List RequestWithId) (ordinary : ∀ req ∈ batch, req.id ≠ kTerminateReqId)
    (owing : Owing owed ((active ++ fetched).map tag) s.sequenceFinalVecs s.responses) :
    let res := fetchEach failing s fetched batch
    Owing (fun id => owed id ∨ id ∈ batch.map RequestWithId.id) ((active ++ res.2).map tag)
      res.1.sequenceFinalVecs res.1.responses := by
  induction batch generalizing s fetched owed with
  | nil =>
    refine owing_owed ?_ owing
    rintro id (due | wrong)
    · exact due
    · exact absurd wrong not_mem_nil
  | cons req rest ih =>
    have made := s.fetch_one_fetched failing req
    rw [fetchEach, if_neg (ordinary req mem_cons_self)]
    generalize s.fetchOne failing req = res at made
    obtain ⟨next, new⟩ := res
    have step := s.owing_fetch_one next owed _ req new made owing
    rw [← map_append, append_assoc] at step
    have later := ih next _ (fetched ++ new)
      (forall_mem_cons.mp ordinary).2 step
    refine owing_owed ?_ later
    rintro id (due | batched)
    · exact .inl (.inl due)
    · rcases mem_cons.mp batched with same | other
      · exact .inl (.inr same)
      · exact .inr other

end Impl

end TrtLlm.Executor
