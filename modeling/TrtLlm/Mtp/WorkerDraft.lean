import TrtLlm.Mtp.Worker

set_option autoImplicit false

namespace TrtLlm.Mtp
open List
open Lib (Table)

def RequestState.queued (state : RequestState) : Bool := !state.tokens.isEmpty

namespace Qwen35MtpWorker
variable (w : Qwen35MtpWorker)

def Fits (state : RequestState) : Prop := state.context = true ∨ state.tokens.length ≤ w.maxDraftLength + 1

structure Keeps (state next : RequestState) : Prop where
  slot : next.slot = state.slot
  draftLength : next.draftLength = state.draftLength
  fits : w.Fits state → w.Fits next

variable (depth : Nat) (states : List RequestState) (merge : Bool) (group : Nat) (groups : List Nat)
    (requests : Table Nat RequestState) (state : RequestState)

theorem keeps_refl : w.Keeps state state := ⟨rfl, rfl, id⟩

theorem keeps_trans (first second third : RequestState) (left : w.Keeps first second) (right : w.Keeps second third) :
    w.Keeps first third :=
  ⟨right.slot.trans left.slot, right.draftLength.trans left.draftLength, fun fits => right.fits (left.fits fits)⟩

theorem advance_keeps : w.Keeps state (w.advance depth state) :=
  ⟨rfl, rfl, fun _ => .inr (Nat.zero_le _)⟩

theorem speculate_keeps : w.Keeps state (speculate depth state) := by
  rw [speculate]
  split
  · exact ⟨rfl, rfl, fun _ => .inr (Nat.le_add_left 1 w.maxDraftLength)⟩
  · exact w.keeps_refl state

theorem deepen_keeps : w.Keeps state (w.deepen depth state) := by
  rw [deepen]
  split
  · exact w.keeps_trans _ _ _ (w.speculate_keeps depth state) (w.advance_keeps depth _)
  · exact w.keeps_refl state

variable (depths : List Nat)

def deepened (state : RequestState) : RequestState :=
  depths.foldl (fun state depth => w.deepen depth state) state

def outcome (state : RequestState) : RequestState :=
  settle (w.advance 0 state) (w.deepened (List.range' 1 (w.maxDraftLength - 1)) (w.advance 0 state))

theorem deepened_tokens (state : RequestState) (done : state.tokens = []) : (w.deepened depths state).tokens = [] := by
  induction depths generalizing state with
  | nil => exact done
  | cons depth deeper ih =>
    apply ih
    dsimp only
    rw [deepen]
    split
    · rfl
    · exact done

theorem deepened_keeps (state : RequestState) : w.Keeps state (w.deepened depths state) := by
  induction depths generalizing state with
  | nil => exact w.keeps_refl state
  | cons depth deeper ih => exact w.keeps_trans _ _ _ (w.deepen_keeps depth state) (ih (w.deepen depth state))

theorem outcome_keeps : w.Keeps state (w.outcome state) := by
  have deeper := w.deepened_keeps (range' 1 (w.maxDraftLength - 1)) (w.advance 0 state)
  have drafted := w.keeps_trans _ _ _ (w.advance_keeps 0 state) deeper
  exact w.keeps_trans _ _ _ drafted ⟨rfl, rfl, id⟩

theorem outcome_tokens : (w.outcome state).tokens = [] := w.deepened_tokens _ _ rfl

def Changes (whole : RequestState → RequestState) (states : List RequestState)
    (result : List RequestState × Option MtpError) : Prop :=
  ∃ change : RequestState → RequestState, result.1 = states.map change ∧ (∀ state, w.Keeps state (change state)) ∧
    (result.2 = none → change = whole)

theorem changes_error (whole other : RequestState → RequestState) (states stopped : List RequestState) (error : MtpError)
    (changes : w.Changes whole states (stopped, some error)) : w.Changes other states (stopped, some error) := by
  obtain ⟨change, changed, keeps, _⟩ := changes
  refine ⟨change, changed, keeps, ?_⟩
  intro fine
  cases fine

theorem changes_then (whole whole' : RequestState → RequestState) (states mid : List RequestState)
    (result : List RequestState × Option MtpError) (first : w.Changes whole states (mid, none))
    (second : w.Changes whole' mid result) : w.Changes (fun state => whole' (whole state)) states result := by
  obtain ⟨change, changed, keeps, exactly⟩ := first
  obtain ⟨change', changed', keeps', exactly'⟩ := second
  have middleEq : mid = states.map change := changed
  refine ⟨fun state => change' (change state), ?_, ?_, ?_⟩
  · rw [changed', middleEq, map_map]
    rfl
  · exact fun state => w.keeps_trans _ _ _ (keeps state) (keeps' (change state))
  · intro fine
    rw [exactly' fine, exactly rfl]

theorem changes_ok (whole : RequestState → RequestState) (states next : List RequestState)
    (changes : w.Changes whole states (next, none)) : next = states.map whole := by
  obtain ⟨change, changed, _, exactly⟩ := changes
  rw [exactly rfl] at changed
  exact changed

theorem draft_batch_changes : w.Changes (w.advance depth) states (w.draftBatch depth states) := by
  unfold draftBatch
  cases w.checkBatch states with
  | some error =>
    refine ⟨id, (map_id states).symm, w.keeps_refl, ?_⟩
    intro fine
    cases fine
  | none => exact ⟨w.advance depth, rfl, w.advance_keeps depth, fun _ => rfl⟩

theorem draft_deeper_changes : w.Changes (w.deepen depth) states (w.draftDeeper depth states) := by
  simp only [draftDeeper]
  split
  · next idle =>
    refine ⟨w.deepen depth, ?_, w.deepen_keeps depth, fun _ => rfl⟩
    rw [List.isEmpty_iff, map_eq_nil_iff, filter_eq_nil_iff] at idle
    refine ((map_congr_left ?_).trans (map_id states)).symm
    intro state mem
    have shallow : ¬depth < state.draftLength := fun deep => idle state mem (decide_eq_true deep)
    rw [deepen, if_neg shallow]
    rfl
  · cases w.draftBatch depth _ with
    | mk _ error =>
      cases error with
      | some error =>
        refine ⟨speculate depth, rfl, w.speculate_keeps depth, ?_⟩
        intro fine
        cases fine
      | none => exact ⟨w.deepen depth, rfl, w.deepen_keeps depth, fun _ => rfl⟩

theorem draft_depths_changes (states : List RequestState) :
    w.Changes (w.deepened depths) states (w.draftDepths depths states) := by
  induction depths generalizing states with
  | nil => exact ⟨id, (map_id states).symm, w.keeps_refl, fun _ => rfl⟩
  | cons depth deeper ih =>
    have first := w.draft_deeper_changes depth states
    rw [draftDepths]
    cases stage : w.draftDeeper depth states with
    | mk drafted error =>
      rw [stage] at first
      cases error with
      | some error => exact w.changes_error _ _ _ _ _ first
      | none => exact w.changes_then (w.deepen depth) (w.deepened deeper) _ _ _ first (ih drafted)

theorem draft_group_changes : w.Changes w.outcome states (w.draftGroup states) := by
  have first := w.draft_batch_changes 0 states
  rw [draftGroup]
  cases stage : w.draftBatch 0 states with
  | mk committed error =>
    rw [stage] at first
    cases error with
    | some error => exact w.changes_error _ _ _ _ _ first
    | none =>
      have second := w.draft_depths_changes (range' 1 (w.maxDraftLength - 1)) committed
      dsimp only
      cases stage' : w.draftDepths (range' 1 (w.maxDraftLength - 1)) committed with
      | mk drafted error =>
        rw [stage'] at second
        cases error with
        | some error => exact w.changes_error _ _ _ _ _ (w.changes_then _ _ _ _ _ first second)
        | none =>
          have committedEq := w.changes_ok _ _ _ first
          have draftedEq := w.changes_ok _ _ _ second
          refine ⟨w.outcome, ?_, ?_, fun _ => rfl⟩
          · dsimp only
            rw [draftedEq, committedEq, map_map, zipWith_map, zipWith_self]
            rfl
          · exact w.outcome_keeps

theorem write_back_map (chosen : RequestState → Bool) (change : RequestState → RequestState) (requests : Table Nat RequestState) :
    writeBack chosen requests (((requests.filter fun entry => chosen entry.2).map Prod.snd).map change) =
      requests.map fun entry => (entry.1, if chosen entry.2 then change entry.2 else entry.2) := by
  induction requests with
  | nil => rfl
  | cons entry rest ih =>
    by_cases here : chosen entry.2 = true
    · have first : (entry :: rest).filter (fun entry => chosen entry.2) =
          entry :: rest.filter fun entry => chosen entry.2 := filter_cons_of_pos here
      rw [first, map_cons, map_cons, writeBack, if_pos here, ih, map_cons, if_pos here]
    have later : (entry :: rest).filter (fun entry => chosen entry.2) = rest.filter fun entry => chosen entry.2 :=
      filter_cons_of_neg here
    rw [later, map_cons, if_neg here, ← ih]
    cases ((rest.filter fun entry => chosen entry.2).map Prod.snd).map change with
    | nil => cases rest <;> rfl
    | cons state states => rw [writeBack, if_neg here]

def reached (merge : Bool) (groups : List Nat) (state : RequestState) : Bool :=
  state.queued && decide (groupOf merge state ∈ groups)

def drafts (merge : Bool) (groups : List Nat) (state : RequestState) : RequestState :=
  if reached merge groups state then w.outcome state else state

theorem outcome_unreached : reached merge groups (w.outcome state) = false := by
  rw [reached, RequestState.queued, outcome_tokens]
  rfl

theorem reached_later : reached merge groups (if inGroup merge group state then w.outcome state else state) =
      (!inGroup merge group state && reached merge (group :: groups) state) := by
  split
  · next here =>
    rw [outcome_unreached, here]
    rfl
  next here =>
  rw [Bool.eq_false_iff.mpr here]
  by_cases waiting : state.tokens.isEmpty = true
  · simp [reached, RequestState.queued, waiting]
  have apart : groupOf merge state ≠ group := by
    intro same
    apply here
    simp [inGroup, waiting, same]
  simp [reached, apart]

theorem drafts_later : w.drafts merge groups (if inGroup merge group state then w.outcome state else state) =
      w.drafts merge (group :: groups) state := by
  have later := w.reached_later merge group groups state
  by_cases here : inGroup merge group state = true
  · have chosen : reached merge (group :: groups) state = true := by
      rw [inGroup, Bool.and_eq_true, decide_eq_true_eq] at here
      simp [reached, RequestState.queued, here.1, here.2]
    rw [if_pos here, drafts, outcome_unreached, drafts, if_pos chosen]
    rfl
  · rw [drafts, drafts, later, Bool.eq_false_iff.mpr here]
    rfl

structure Passed (merge : Bool) (groups : List Nat) (requests : Table Nat RequestState) (ids : List Nat)
    (result : Table Nat RequestState × List Nat × Option MtpError) : Prop where
  kept : ∃ change : RequestState → RequestState, (∀ state, w.Keeps state (change state)) ∧
    result.1 = requests.map fun entry => (entry.1, change entry.2)
  exactly : result.2.2 = none → result.1 = requests.map fun entry => (entry.1, w.drafts merge groups entry.2)
  once : result.2.2 = none → result.2.1.Perm (ids ++ (requests.filter fun entry => reached merge groups entry.2).map Prod.fst)

theorem reached_nil : reached merge [] state = false := by simp [reached]

theorem passed_nil (ids : List Nat) : w.Passed merge [] requests ids (requests, ids, none) := by
  have same : requests.map (fun entry => (entry.1, entry.2)) = requests := map_id requests
  refine ⟨⟨id, w.keeps_refl, same.symm⟩, fun _ => ?_, fun _ => ?_⟩
  · simp only [drafts, reached_nil, Bool.false_eq_true, if_false]
    exact same.symm
  · simp [reached_nil]

theorem reached_split : ((requests.filter fun entry => inGroup merge group entry.2) ++
      (requests.filter fun entry => !inGroup merge group entry.2 && reached merge (group :: groups) entry.2)).Perm
      (requests.filter fun entry => reached merge (group :: groups) entry.2) := by
  have chosen : (requests.filter fun entry => inGroup merge group entry.2) =
      (requests.filter fun entry => reached merge (group :: groups) entry.2).filter fun entry =>
        inGroup merge group entry.2 := by
    rw [filter_filter]
    apply filter_congr
    intro entry _
    by_cases here : inGroup merge group entry.2 = true
    · have both := here
      rw [inGroup, Bool.and_eq_true, decide_eq_true_eq] at both
      simp [here, reached, RequestState.queued, both.1, both.2]
    · rw [Bool.eq_false_iff.mpr here]
      rfl
  have others : (requests.filter fun entry => !inGroup merge group entry.2 && reached merge (group :: groups) entry.2) =
      (requests.filter fun entry => reached merge (group :: groups) entry.2).filter fun entry =>
        !inGroup merge group entry.2 := by
    rw [filter_filter]
  rw [chosen, others]
  exact filter_append_perm _ _

def afterGroup (merge : Bool) (group : Nat) (requests : Table Nat RequestState) : Table Nat RequestState :=
  requests.map fun entry => (entry.1, if inGroup merge group entry.2 then w.outcome entry.2 else entry.2)

theorem after_group_idle (idle : (requests.filter fun entry => inGroup merge group entry.2) = []) :
    w.afterGroup merge group requests = requests := by
  rw [filter_eq_nil_iff] at idle
  refine (map_congr_left ?_).trans (map_id requests)
  intro entry mem
  rw [if_neg (idle entry mem)]
  rfl

theorem passed_cons (ids : List Nat) (result : Table Nat RequestState × List Nat × Option MtpError)
    (later : w.Passed merge groups (w.afterGroup merge group requests)
      (ids ++ (requests.filter fun entry => inGroup merge group entry.2).map Prod.fst) result) :
    w.Passed merge (group :: groups) requests ids result := by
  obtain ⟨⟨change, keeps, changed⟩, exactly, once⟩ := later
  refine ⟨⟨fun state => change (if inGroup merge group state then w.outcome state else state), ?_, ?_⟩, ?_, ?_⟩
  · intro state
    refine w.keeps_trans _ _ _ ?_ (keeps _)
    split
    · exact w.outcome_keeps state
    · exact w.keeps_refl state
  · rw [changed, afterGroup, map_map]
    rfl
  · intro fine
    rw [exactly fine, afterGroup, map_map]
    apply map_congr_left
    intro entry _
    exact congrArg (Prod.mk entry.1) (w.drafts_later merge group groups entry.2)
  · intro fine
    have rest : ((w.afterGroup merge group requests).filter fun entry => reached merge groups entry.2).map Prod.fst =
        (requests.filter fun entry => !inGroup merge group entry.2 && reached merge (group :: groups) entry.2).map
          Prod.fst := by
      rw [afterGroup, filter_map, map_map]
      simp only [Function.comp_def, w.reached_later]
    refine (once fine).trans ?_
    rw [rest, append_assoc, ← map_append]
    exact ((reached_split merge group groups requests).map Prod.fst).append_left ids

theorem draft_groups_passed (ids : List Nat) : w.Passed merge groups requests ids (w.draftGroups merge groups requests ids) := by
  induction groups generalizing requests ids with
  | nil => exact w.passed_nil merge requests ids
  | cons group groups ih =>
    simp only [draftGroups]
    split
    · next idle =>
      rw [List.isEmpty_iff] at idle
      apply w.passed_cons
      rw [w.after_group_idle merge group requests idle, idle, map_nil, append_nil]
      exact ih requests ids
    have changes := w.draft_group_changes
      ((requests.filter fun entry => inGroup merge group entry.2).map Prod.snd)
    cases stage : w.draftGroup ((requests.filter fun entry => inGroup merge group entry.2).map Prod.snd) with
    | mk states error =>
      rw [stage] at changes
      cases error with
      | some error =>
        obtain ⟨change, changed, keeps, _⟩ := changes
        have statesEq : states = _ := changed
        refine ⟨⟨fun state => if inGroup merge group state then change state else state, ?_, ?_⟩, ?_, ?_⟩
        · intro state
          by_cases here : inGroup merge group state = true
          · simp only [if_pos here]
            exact keeps state
          · simp only [if_neg here]
            exact w.keeps_refl state
        · dsimp only
          rw [statesEq, write_back_map]
        · intro fine
          cases fine
        · intro fine
          cases fine
      | none =>
        apply w.passed_cons
        dsimp only
        rw [w.changes_ok _ _ _ changes, write_back_map]
        exact ih _ _

end Qwen35MtpWorker
end TrtLlm.Mtp
