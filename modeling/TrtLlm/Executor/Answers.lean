import TrtLlm.Executor.Shutdown

set_option autoImplicit false

namespace TrtLlm.Executor
open List
open Lib (Trace AllSteps trace_invariant)

-- Every returned id is either queued, active or answered, and nothing follows its last response.
structure Exact (returned queued : List Nat) (tags : List Tag) (vecs : FinalVecs) (responses : List Response) : Prop where
  housed : ∀ tag ∈ tags, Housed vecs tag
  kin : ∀ tag ∈ tags, ∀ other ∈ tags, tag.family = other.family → tag.responseId = other.responseId
  sole : ∀ tag ∈ tags, ∀ other ∈ tags, tag.responseId = other.responseId → tag.family = other.family
  places : tags.Pairwise fun tag other => tag.family = other.family → tag.sequenceIndex ≠ other.sequenceIndex
  pending : ∀ tag ∈ tags, ∀ vec, vecs[tag.family]? = some vec → vec[tag.sequenceIndex]? = some false
  whole : ∀ tag ∈ tags, Complete tags vecs tag.family
  active : ∀ tag ∈ tags, tag.responseId ∈ returned ∧ tag.responseId ∉ queued ∧ ¬Answered responses tag.responseId
  waiting : ∀ id ∈ queued, id ∈ returned ∧ ¬Answered responses id
  distinct : queued.Nodup
  known : ∀ response ∈ responses, response.requestId ∈ returned
  once : responses.Pairwise fun early late => early.last = true → late.requestId ≠ early.requestId
  due : ∀ id ∈ returned, id ∈ queued ∨ (∃ tag ∈ tags, tag.responseId = id) ∨ Answered responses id

theorem answered_snoc {responses : List Response} {resp : Response} {id : Nat}
    (answered : Answered (responses ++ [resp]) id) :
    Answered responses id ∨ (resp.requestId = id ∧ resp.last = true) := by
  obtain ⟨found, mem, same⟩ := answered
  rcases mem_append.mp mem with old | new
  · exact .inl ⟨found, old, same⟩
  · rw [mem_singleton.mp new] at same
    exact .inr same

theorem once_snoc {responses : List Response} {resp : Response}
    (once : responses.Pairwise fun early late => early.last = true → late.requestId ≠ early.requestId)
    (fresh : ¬Answered responses resp.requestId) :
    (responses ++ [resp]).Pairwise fun early late => early.last = true → late.requestId ≠ early.requestId := by
  rw [pairwise_append]
  refine ⟨once, pairwise_singleton _ _, ?_⟩
  intro early mem late lateMem last same
  rw [mem_singleton.mp lateMem] at same
  exact fresh ⟨early, mem, same.symm, last⟩

theorem all_final_false {vecs : FinalVecs} {family idx : Nat} {vec : List Bool} (found : vecs[family]? = some vec)
    (open' : vec[idx]? = some false) : allFinal vecs family = false := by
  rw [Bool.eq_false_iff]
  intro all
  have inside := (List.getElem?_eq_some_iff.mp open').1
  have done := (all_final_iff found).mp all idx inside
  rw [open'] at done
  cases done

section Exact
variable {returned queued : List Nat} {tags : List Tag} {vecs : FinalVecs} {responses : List Response}

theorem pending_mark (tag other : Tag) (done : Bool)
    (places : other.family = tag.family → other.sequenceIndex ≠ tag.sequenceIndex)
    (pending : ∀ vec, vecs[other.family]? = some vec → vec[other.sequenceIndex]? = some false) (vec : List Bool)
    (found : (setMark vecs tag done)[other.family]? = some vec) : vec[other.sequenceIndex]? = some false := by
  rw [marked_at] at found
  obtain ⟨own, ownEq, rfl⟩ := Option.map_eq_some_iff.mp found
  have unmarked := pending own ownEq
  rw [marked_value _ _ (List.getElem?_eq_some_iff.mp unmarked).1,
    if_neg fun here => places here.1.symm here.2.symm, unmarked]

-- An id that was taken off the queue is owed.
theorem settled_of_owing (owing : Owing (fun id => id ∈ returned ∧ id ∉ queued) tags vecs responses) :
    ∀ id ∈ returned, id ∈ queued ∨ (∃ tag ∈ tags, tag.responseId = id) ∨ Answered responses id := by
  intro id known
  by_cases waits : id ∈ queued
  · exact .inl waits
  · refine .inr ((owing.due id ⟨known, waits⟩).imp_left ?_)
    rintro ⟨tag, mem, named, _⟩
    exact ⟨tag, mem, named⟩

section
variable (exact' : Exact returned queued tags vecs responses)

include exact'

theorem Exact.owing : Owing (fun id => id ∈ returned ∧ id ∉ queued) tags vecs responses := by
  refine ⟨exact'.housed, exact'.kin, fun id due => ?_⟩
  rcases exact'.due id due.1 with queuedMem | ⟨tag, mem, named⟩ | answered
  · exact absurd queuedMem due.2
  · exact .inl ⟨tag, mem, named, exact'.whole tag mem⟩
  · exact .inr answered

theorem Exact.mark (tag : Tag) (mem : tag ∈ tags) : Exact returned queued tags (setMark vecs tag false) responses := by
  refine { exact' with housed := ?_, pending := ?_, whole := ?_ }
  · exact fun other otherMem => housed_mark tag false (exact'.housed other otherMem)
  · intro other otherMem vec found
    rw [marked_at] at found
    obtain ⟨own, ownEq, rfl⟩ := Option.map_eq_some_iff.mp found
    have unmarked := exact'.pending other otherMem own ownEq
    rw [marked_value _ _ (List.getElem?_eq_some_iff.mp unmarked).1, unmarked, ite_self]
  · exact fun other otherMem => complete_mark false mem (exact'.whole other otherMem)

theorem Exact.stream (tag : Tag) (mem : tag ∈ tags)
    (resp : Response) (named : resp.requestId = tag.responseId) (more : resp.last = false) :
    Exact returned queued tags vecs (responses ++ [resp]) := by
  have active := exact'.active tag mem
  have unanswered : ∀ id, ¬Answered responses id → ¬Answered (responses ++ [resp]) id := by
    intro id not' answered
    rcases answered_snoc answered with old | ⟨_, last⟩
    · exact not' old
    · rw [more] at last
      cases last
  refine { exact' with active := ?_, waiting := ?_, known := ?_, once := ?_, due := ?_ }
  · intro other otherMem
    obtain ⟨known, absent, not'⟩ := exact'.active other otherMem
    exact ⟨known, absent, unanswered _ not'⟩
  · exact fun id queuedMem => ⟨(exact'.waiting id queuedMem).1, unanswered id (exact'.waiting id queuedMem).2⟩
  · exact forall_mem_append.mpr ⟨exact'.known, forall_mem_singleton.mpr (named ▸ active.1)⟩
  · exact once_snoc exact'.once (named ▸ active.2.2)
  · exact fun id known => (exact'.due id known).imp_right (.imp_right (answered_append [resp]))

theorem Exact.terminate (parents : ∀ tag ∈ tags, tag.isChild = false) :
    Exact returned queued [] vecs (responses ++ tags.map fun tag => Impl.errorResponse tag.requestId) := by
  have own : ∀ tag ∈ tags, tag.responseId = tag.requestId := by
    intro tag mem
    rw [Tag.responseId, parents tag mem, if_neg Bool.false_ne_true]
  have errors : ∀ resp ∈ tags.map fun tag => Impl.errorResponse tag.requestId,
      ∃ tag ∈ tags, resp.requestId = tag.responseId := by
    exact forall_mem_map.mpr fun tag tagMem => ⟨tag, tagMem, (own tag tagMem).symm⟩
  refine ⟨by simp, by simp, by simp, Pairwise.nil, by simp, by simp, by simp, ?_, exact'.distinct, ?_, ?_, ?_⟩
  · intro id queuedMem
    refine ⟨(exact'.waiting id queuedMem).1, ?_⟩
    rintro ⟨resp, mem, same, last⟩
    rcases mem_append.mp mem with old | new
    · exact (exact'.waiting id queuedMem).2 ⟨resp, old, same, last⟩
    · obtain ⟨tag, tagMem, named⟩ := errors resp new
      exact (exact'.active tag tagMem).2.1 ((named.symm.trans same) ▸ queuedMem)
  · intro resp mem
    rcases mem_append.mp mem with old | new
    · exact exact'.known resp old
    · obtain ⟨tag, tagMem, named⟩ := errors resp new
      rw [named]
      exact (exact'.active tag tagMem).1
  · rw [pairwise_append]
    refine ⟨exact'.once, ?_, ?_⟩
    · rw [pairwise_map]
      refine Pairwise.imp_of_mem ?_ exact'.places
      -- Two parents of one family would both be its first sequence.
      intro tag other tagMem otherMem places _ same
      have ids : tag.responseId = other.responseId := by
        rw [own tag tagMem, own other otherMem]
        exact same.symm
      have first : ∀ third ∈ tags, third.sequenceIndex = 0 := by
        intro third thirdMem
        have child := parents third thirdMem
        rw [Tag.isChild, decide_eq_false_iff_not] at child
        exact Nat.eq_zero_of_not_pos child
      exact places (exact'.sole tag tagMem other otherMem ids) ((first tag tagMem).trans (first other otherMem).symm)
    · intro early mem late lateMem last same
      obtain ⟨tag, tagMem, named⟩ := errors late lateMem
      exact (exact'.active tag tagMem).2.2 ⟨early, mem, same.symm.trans named, last⟩
  · refine settled_of_owing (owing_terminate tags ?_ exact'.owing)
    intro tag mem child
    rw [parents tag mem] at child
    cases child

theorem Exact.enqueue (ids more : List Nat)
    (perm : more.Perm (queued ++ ids)) (fresh : ∀ id ∈ ids, id ∉ returned) (nodup : ids.Nodup) :
    Exact (returned ++ ids) more tags vecs responses := by
  have members : ∀ id, id ∈ more ↔ id ∈ queued ∨ id ∈ ids := fun id => perm.mem_iff.trans mem_append
  refine { exact' with active := ?_, waiting := ?_, distinct := ?_, known := ?_, due := ?_ }
  · intro tag mem
    obtain ⟨known, absent, unanswered⟩ := exact'.active tag mem
    refine ⟨mem_append_left _ known, ?_, unanswered⟩
    intro queuedMem
    rcases (members _).mp queuedMem with old | new
    · exact absent old
    · exact fresh _ new known
  · intro id mem
    rcases (members id).mp mem with old | new
    · exact ⟨mem_append_left _ (exact'.waiting id old).1, (exact'.waiting id old).2⟩
    · refine ⟨mem_append_right _ new, ?_⟩
      rintro ⟨resp, responseMem, same, _⟩
      exact fresh id new (same ▸ exact'.known resp responseMem)
  · rw [perm.nodup_iff, nodup_append]
    refine ⟨exact'.distinct, nodup, ?_⟩
    rintro id old other new rfl
    exact fresh id new (exact'.waiting id old).1
  · exact fun resp mem => mem_append_left _ (exact'.known resp mem)
  · intro id known
    rcases mem_append.mp known with old | new
    · exact (exact'.due id old).imp_left fun queuedMem => (members id).mpr (.inl queuedMem)
    · exact .inl ((members id).mpr (.inr new))

theorem Exact.reorder {others : List Tag} (perm : others.Perm tags) : Exact returned queued others vecs responses := by
  have sub : ∀ tag ∈ others, tag ∈ tags := fun tag mem => perm.mem_iff.mp mem
  have symmetric : ∀ tag other : Tag, (tag.family = other.family → tag.sequenceIndex ≠ other.sequenceIndex) →
      other.family = tag.family → other.sequenceIndex ≠ tag.sequenceIndex :=
    fun tag other places same idx => places same.symm idx.symm
  have owing := owing_congr (fun _ => perm.mem_iff.symm) exact'.owing
  refine { exact' with
    housed := owing.housed, kin := owing.kin, sole := ?_, places := ?_, pending := ?_, whole := ?_, active := ?_
    due := settled_of_owing owing }
  · exact fun tag mem other member' => exact'.sole tag (sub tag mem) other (sub other member')
  · exact (perm.pairwise_iff fun {tag other} places => symmetric tag other places).mpr exact'.places
  · exact fun tag mem => exact'.pending tag (sub tag mem)
  · exact fun tag mem => complete_mono (fun _ => perm.mem_iff.mpr)
      (exact'.whole tag (sub tag mem))
  · exact fun tag mem => exact'.active tag (sub tag mem)

end

theorem Exact.finish {before after : List Tag} {tag : Tag}
    (exact' : Exact returned queued (before ++ tag :: after) vecs responses) (resp : Response)
    (named : resp.requestId = tag.responseId) (error : resp.hasError = false)
    (final : resp.isFinal = allFinal (setMark vecs tag true) tag.family) :
    Exact returned queued (before ++ after) (setMark vecs tag true) (responses ++ [resp]) := by
  have sub : ∀ other ∈ before ++ after, other ∈ before ++ tag :: after :=
    fun other mem => perm_middle.mem_iff.mpr (mem_cons_of_mem _ mem)
  have here : tag ∈ before ++ tag :: after := mem_append_right _ mem_cons_self
  have apart : ∀ other ∈ before ++ after, other.family = tag.family → other.sequenceIndex ≠ tag.sequenceIndex := by
    have places := exact'.places
    rw [pairwise_append] at places
    obtain ⟨_, tail, across⟩ := places
    intro other mem same
    rcases mem_append.mp mem with early | late
    · exact across other early tag mem_cons_self same
    · exact fun idx => (pairwise_cons.mp tail).1 other late same.symm idx.symm
  have pending : ∀ other ∈ before ++ after, ∀ vec, (setMark vecs tag true)[other.family]? = some vec →
      vec[other.sequenceIndex]? = some false := fun other mem =>
    pending_mark tag other true (apart other mem) (exact'.pending other (sub other mem))
  have owing := owing_finish tag named final exact'.owing
  -- While a sibling is active the family is not finished.
  have more : ∀ other ∈ before ++ after, other.family = tag.family → resp.last = false := by
    intro other mem same
    obtain ⟨vec, found, _⟩ := owing.housed other mem
    rw [Response.last, error, final, ← same, all_final_false found (pending other mem vec found)]
    rfl
  have active := exact'.active tag here
  refine ⟨owing.housed, owing.kin, ?_, ?_, pending, ?_, ?_, ?_, exact'.distinct, ?_, ?_, settled_of_owing owing⟩
  · exact fun other mem third member' => exact'.sole other (sub other mem) third (sub third member')
  · refine Pairwise.sublist ?_ exact'.places
    exact Sublist.append_left (sublist_cons_self tag after) before
  · exact fun other mem => complete_finish tag (exact'.whole other (sub other mem))
  · intro other mem
    obtain ⟨known, absent, unanswered⟩ := exact'.active other (sub other mem)
    refine ⟨known, absent, ?_⟩
    intro answered
    rcases answered_snoc answered with old | ⟨same, last⟩
    · exact unanswered old
    · have family := exact'.sole other (sub other mem) tag here (same.symm.trans named)
      rw [more other mem family] at last
      cases last
  · intro id queuedMem
    refine ⟨(exact'.waiting id queuedMem).1, ?_⟩
    intro answered
    rcases answered_snoc answered with old | ⟨same, _⟩
    · exact (exact'.waiting id queuedMem).2 old
    · exact active.2.1 ((named.symm.trans same) ▸ queuedMem)
  · exact forall_mem_append.mpr ⟨exact'.known, forall_mem_singleton.mpr (named ▸ active.1)⟩
  · exact once_snoc exact'.once (named ▸ active.2.2)

theorem Exact.populate (kept : List LlmRequest) {rest : List LlmRequest}
    (exact' : Exact returned queued ((kept ++ rest).map LlmRequest.tag) vecs responses) :
    let after := Impl.populate kept rest vecs responses
    Exact returned queued (after.1.map LlmRequest.tag) after.2.1 after.2.2 := by
  refine populate_rule ?_ ?_ ?_ exact'
  · exact fun tags vecs responses tag mem exact' => exact'.mark tag mem
  · intro tags vecs responses tag resp mem id error final exact'
    obtain ⟨vec, found, _⟩ := exact'.housed tag mem
    have more : resp.last = false := by
      rw [Response.last, error, final]
      exact all_final_false found (exact'.pending tag mem vec found)
    exact exact'.stream tag mem resp id more
  · exact fun before after tag vecs responses resp id error final exact' => exact'.finish resp id error final

theorem Exact.family {id count : Nat} {made : List Tag} (exact' : Exact returned (id :: queued) tags vecs responses)
    (pos : 0 < count) (family : ∀ tag ∈ made, tag.family = vecs.length ∧ tag.responseId = id ∧ tag.sequenceIndex < count)
    (all : ∀ idx, idx < count → ∃ tag ∈ made, tag.sequenceIndex = idx)
    (places : made.Pairwise fun tag other => tag.sequenceIndex ≠ other.sequenceIndex) :
    Exact returned queued (tags ++ made) (vecs ++ [replicate count false]) responses := by
  have fresh : (vecs ++ [replicate count false])[vecs.length]? = some (replicate count false) := getElem?_concat_length
  have apart : ∀ tag ∈ tags, tag.family ≠ vecs.length := fun tag mem =>
    Nat.ne_of_lt (housed_lt (exact'.housed tag mem))
  have front := exact'.waiting id mem_cons_self
  have others : ∀ tag ∈ tags, tag.responseId ≠ id := by
    intro tag mem same
    exact (exact'.active tag mem).2.1 (same ▸ mem_cons_self)
  obtain ⟨missing, nodup⟩ := nodup_cons.mp exact'.distinct
  have owing : Owing _ _ _ (responses ++ []) := owing_family family (.inr ⟨pos, all⟩) exact'.owing
  rw [append_nil] at owing
  refine ⟨owing.housed, owing.kin, ?_, ?_, ?_, ?_, ?_, ?_, nodup, exact'.known, exact'.once,
    settled_of_owing (owing_owed ?_ owing)⟩
  · intro tag mem other member' same
    rcases mem_append.mp mem with old | new
    · rcases mem_append.mp member' with old' | new'
      · exact exact'.sole tag old other old' same
      · exact absurd (same.trans (family other new').2.1) (others tag old)
    · rcases mem_append.mp member' with old' | new'
      · exact absurd (same.symm.trans (family tag new).2.1) (others other old')
      · exact (family tag new).1.trans (family other new').1.symm
  · rw [pairwise_append]
    refine ⟨exact'.places, ?_, ?_⟩
    · refine places.imp ?_
      intro tag other idx _
      exact idx
    · intro tag old other new same
      exact absurd (same.trans (family other new).1) (apart tag old)
  · intro tag mem vec found
    rcases mem_append.mp mem with old | new
    · rw [getElem?_append_left (housed_lt (exact'.housed tag old))] at found
      exact exact'.pending tag old vec found
    · rw [(family tag new).1, fresh] at found
      cases found
      rw [getElem?_replicate, if_pos (family tag new).2.2]
  · intro tag mem
    rcases mem_append.mp mem with old | new
    · exact complete_mono (fun _ => mem_append_left _)
        (complete_append _ (exact'.whole tag old))
    · exact family_complete family tag new all
  · intro tag mem
    rcases mem_append.mp mem with old | new
    · obtain ⟨known, absent, unanswered⟩ := exact'.active tag old
      exact ⟨known, fun queuedMem => absent (mem_cons_of_mem _ queuedMem), unanswered⟩
    · rw [(family tag new).2.1]
      exact ⟨front.1, missing, front.2⟩
  · exact (forall_mem_cons.mp exact'.waiting).2
  · intro other due
    by_cases same : other = id
    · exact .inr same
    · exact .inl ⟨due.1, not_mem_cons_of_ne_of_not_mem same due.2⟩

theorem Exact.refuse {id : Nat} (exact' : Exact returned (id :: queued) tags vecs responses) (vec : List Bool) :
    Exact returned queued tags (vecs ++ [vec]) (responses ++ [Impl.errorResponse id]) := by
  have front := exact'.waiting id mem_cons_self
  obtain ⟨missing, nodup⟩ := nodup_cons.mp exact'.distinct
  refine ⟨?_, exact'.kin, exact'.sole, exact'.places, ?_, ?_, ?_, ?_, nodup, ?_, ?_, ?_⟩
  · exact fun tag mem => housed_append vec (exact'.housed tag mem)
  · intro tag mem own found
    rw [getElem?_append_left (housed_lt (exact'.housed tag mem))] at found
    exact exact'.pending tag mem own found
  · exact fun tag mem => complete_append vec (exact'.whole tag mem)
  · intro tag mem
    obtain ⟨known, absent, unanswered⟩ := exact'.active tag mem
    refine ⟨known, fun queuedMem => absent (mem_cons_of_mem _ queuedMem), ?_⟩
    intro answered
    rcases answered_snoc answered with old | ⟨same, _⟩
    · exact unanswered old
    · exact absent (same ▸ mem_cons_self)
  · intro other mem
    have later := exact'.waiting other (mem_cons_of_mem _ mem)
    refine ⟨later.1, ?_⟩
    intro answered
    rcases answered_snoc answered with old | ⟨same, _⟩
    · exact later.2 old
    · have same' : id = other := same
      exact missing (same' ▸ mem)
  · exact forall_mem_append.mpr ⟨exact'.known, forall_mem_singleton.mpr front.1⟩
  · exact once_snoc exact'.once front.2
  · intro other known
    rcases exact'.due other known with queuedMem | live | answered
    · rcases mem_cons.mp queuedMem with same | later
      · exact .inr (.inr ⟨_, mem_append_right _ mem_cons_self, same.symm, rfl⟩)
      · exact .inl later
    · exact .inr (.inl live)
    · exact .inr (.inr (answered_append _ answered))

end Exact
end TrtLlm.Executor
