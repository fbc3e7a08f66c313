import TrtLlm.Lib.Runs

set_option autoImplicit false

namespace TrtLlm.V2.Eviction
open List

-- The dict, sorted by priority. A page keeps its priority, and its node_ref is set while it is queued.
abbrev Policies (Page : Type) := List (Int × List Page)

-- The groups of one PerLevelEvictionController.
abbrev Controller (Page : Type) := List (Policies Page)

inductive EvictError where
  | outOfPages
  | emptyFront
deriving DecidableEq, Repr

section
variable {Page : Type} (priority : Page → Int)

def queued (policies : Policies Page) : List Page := (policies.map Prod.snd).flatten

-- get_policy puts a new priority into its place.
def push (page : Page) (evictFirst : Bool) : Policies Page → Policies Page
  | [] => [(priority page, [page])]
  | (key, queue) :: rest =>
    if priority page = key then (key, if evictFirst then page :: queue else queue ++ [page]) :: rest
    else if priority page < key then (priority page, [page]) :: (key, queue) :: rest
    else (key, queue) :: push page evictFirst rest

-- Popping leaves an emptied queue in the dict, where the next pop fails.
def pop : Policies Page → Option (Page × Policies Page)
  | (key, page :: queue) :: rest => some (page, (key, queue) :: rest)
  | _ => none

def removePage [DecidableEq Page] (page : Page) : Policies Page → Option (Policies Page)
  | [] => none
  | (key, queue) :: rest =>
    if priority page = key then
      if page ∈ queue then
        -- only this path drops a queue that runs empty
        some (if (queue.erase page).isEmpty then rest else (key, queue.erase page) :: rest)
      else none
    else (removePage page rest).map ((key, queue) :: ·)

-- The pages popped before an error stay taken out.
def popMany : Nat → Policies Page → List Page × Policies Page × Option EvictError
  | 0, policies => ([], policies, none)
  | count + 1, policies =>
    match pop policies with
    | none => ([], policies, some .emptyFront)
    | some (page, rest) =>
      let (pages, left, error) := popMany count rest
      (page :: pages, left, error)

def evictGroups : List Nat → Controller Page → List (List Page) × Controller Page × Option EvictError
  | count :: counts, policies :: groups =>
    if (queued policies).length < count then ([], policies :: groups, some .outOfPages)
    else
      match popMany count policies with
      | (pages, left, some error) => ([pages], left :: groups, some error)
      | (pages, left, none) =>
        let (others, last, error) := evictGroups counts groups
        (pages :: others, left :: last, error)
  | _, groups => ([], groups, none)

variable (group : Page → Nat)

def scheduleForEviction (page : Page) (evictFirst : Bool) (s : Controller Page) : Controller Page :=
  s.modify (group page) (push priority page evictFirst)

def remove [DecidableEq Page] (page : Page) (s : Controller Page) : Option (Controller Page) :=
  match s[group page]? with
  | none => none
  | some policies => (removePage priority page policies).map fun left => s.set (group page) left

variable (minNumPages : List Nat)

-- After an error the popped pages are put back, the last one first.
def evict (s : Controller Page) : Except EvictError (List (List Page)) × Controller Page :=
  match evictGroups minNumPages s with
  | (pages, next, none) => (.ok pages, next)
  | (pages, next, some error) =>
    (.error error, pages.flatten.reverse.foldl (fun s page => scheduleForEviction priority group page true s) next)

inductive Action (Page : Type) where
  | schedule (page : Page) (evictFirst : Bool)
  | remove (page : Page)
  | evict (minNumPages : List Nat)

inductive Step [DecidableEq Page] : Controller Page → Action Page → Controller Page → Prop where
  | schedule {s : Controller Page} {page : Page} {evictFirst : Bool} : (∀ policies ∈ s, page ∉ queued policies) →
      Step s (.schedule page evictFirst) (scheduleForEviction priority group page evictFirst s)
  | remove {s next : Controller Page} {page : Page} : remove priority group page s = some next → Step s (.remove page) next
  | evict {s : Controller Page} {minNumPages : List Nat} : minNumPages.length = s.length →
      Step s (.evict minNumPages) (evict priority group minNumPages s).2

-- The queues stand in order of priority and hold their own pages.
def Sorted : Policies Page → Prop
  | [] => True
  | (key, queue) :: rest => (∀ page ∈ queue, priority page = key) ∧ (∀ other ∈ rest, key < other.1) ∧ Sorted rest

variable {priority}
variable {page : Page} {policies : Policies Page}

theorem mem_push {evictFirst : Bool} {other : Int × List Page} (mem : other ∈ push priority page evictFirst policies) :
    other.1 = priority page ∨ ∃ entry ∈ policies, entry.1 = other.1 := by
  induction policies with
  | nil => grind [push]
  | cons head rest ih => grind [push]

theorem Sorted.push (sorted : Sorted priority policies) (page : Page) (evictFirst : Bool) :
    Sorted priority (push priority page evictFirst policies) := by
  induction policies with
  | nil => grind [Eviction.push, Sorted]
  | cons head rest ih =>
    have keys : ∀ other ∈ Eviction.push priority page evictFirst rest,
        other.1 = priority page ∨ ∃ entry ∈ rest, entry.1 = other.1 := fun other => mem_push
    grind [Eviction.push, Sorted]

theorem mem_remove_page [DecidableEq Page] : ∀ {left : Policies Page} {other : Int × List Page},
    removePage priority page policies = some left → other ∈ left → ∃ entry ∈ policies, entry.1 = other.1 := by
  induction policies with
  | nil => grind [removePage]
  | cons head rest ih => grind [removePage, Option.map_eq_some_iff]

theorem Sorted.remove_page [DecidableEq Page] : ∀ {left : Policies Page}, Sorted priority policies →
    removePage priority page policies = some left → Sorted priority left := by
  induction policies with
  | nil => grind [removePage]
  | cons head rest ih =>
    have keys : ∀ left other, removePage priority page rest = some left → other ∈ left → ∃ entry ∈ rest, entry.1 = other.1 :=
      fun left other => mem_remove_page
    grind [removePage, Sorted, Option.map_eq_some_iff]

theorem pop_many_nil (count : Nat) :
    popMany count ([] : Policies Page) = ([], [], if count = 0 then none else some .emptyFront) := by
  cases count <;> rfl

theorem pop_many_cons (count : Nat) (key : Int) (queue : List Page) (rest : Policies Page) :
    popMany count ((key, queue) :: rest) =
      (queue.take count, (key, queue.drop count) :: rest, if count ≤ queue.length then none else some .emptyFront) := by
  induction count generalizing queue with
  | zero => rfl
  | succ count ih =>
    cases queue with
    | nil => rfl
    | cons page queue =>
      rw [popMany, pop]
      dsimp only
      rw [ih queue]
      simp

theorem Sorted.pop_many (sorted : Sorted priority policies) (count : Nat) : Sorted priority (popMany count policies).2.1 := by
  cases policies with
  | nil => rwa [pop_many_nil]
  | cons head rest =>
    rw [pop_many_cons]
    exact ⟨fun page mem => sorted.1 page (mem_of_mem_drop mem), sorted.2⟩

theorem sorted_evict_groups : ∀ s : Controller Page, (∀ policies ∈ s, Sorted priority policies) →
    ∀ policies ∈ (evictGroups minNumPages s).2.1, Sorted priority policies := by
  induction minNumPages with
  | nil => exact fun s sorted => sorted
  | cons count counts ih =>
    intro s sorted
    cases s with
    | nil => exact sorted
    | cons policies groups =>
      have popped := (forall_mem_cons.mp sorted).1.pop_many count
      grind [evictGroups]

variable {s : Controller Page}

theorem sorted_schedule {group : Page → Nat} (sorted : ∀ policies ∈ s, Sorted priority policies)
    (page : Page) (evictFirst : Bool) :
    ∀ policies ∈ scheduleForEviction priority group page evictFirst s, Sorted priority policies := by
  intro policies mem
  obtain ⟨at_, found⟩ := mem_iff_getElem?.mp mem
  rw [scheduleForEviction, getElem?_modify] at found
  obtain ⟨old, stood, rfl⟩ := Option.map_eq_some_iff.mp found
  have before := sorted old (mem_of_getElem? stood)
  split
  · exact before.push page evictFirst
  · exact before

theorem sorted_step [DecidableEq Page] {group : Page → Nat} {s : Controller Page} {action : Action Page} {next : Controller Page}
    (sorted : ∀ policies ∈ s, Sorted priority policies) (step : Step priority group s action next) :
    ∀ policies ∈ next, Sorted priority policies := by
  cases step with
  | schedule _ => exact sorted_schedule sorted _ _
  | remove done =>
    unfold remove at done
    split at done
    · cases done
    next policies found =>
    obtain ⟨left, removed, rfl⟩ := Option.map_eq_some_iff.mp done
    intro other mem
    rcases mem_or_eq_of_mem_set mem with old | rfl
    · exact sorted other old
    · exact (sorted policies (mem_of_getElem? found)).remove_page removed
  | @evict minNumPages _ =>
    have groups := sorted_evict_groups minNumPages s sorted
    unfold evict
    split
    · next res =>
      rw [res] at groups
      exact groups
    next pages left error res =>
    rw [res] at groups
    clear res
    -- each page that goes back keeps the order
    induction pages.flatten.reverse generalizing left with
    | nil => exact groups
    | cons page rest ih => exact ih _ (sorted_schedule groups page true)

def Enough (s : Controller Page) : Prop :=
  Forall₂ (fun count policies => count ≤ (queued policies).length) minNumPages s

variable (priority) in
def EvictsInOrder (group : Page → Nat) (minNumPages : List Nat) (s : Controller Page) : Prop :=
  ∃ next, evict priority group minNumPages s = (.ok (minNumPages.zipWith List.take (s.map queued)), next) ∧
    next.map queued = minNumPages.zipWith List.drop (s.map queued)

-- The queue of the lowest priority, be it empty, holds all that is asked for.
def FrontHolds (count : Nat) (policies : Policies Page) : Prop := count ≤ (policies.headD (0, [])).2.length

theorem pop_many_iff (count : Nat) (policies : Policies Page) :
    (popMany count policies).2.2 = none ↔ FrontHolds count policies := by
  cases policies with
  | nil => simp [pop_many_nil, FrontHolds]
  | cons head rest => simp [pop_many_cons count head.1 head.2 rest, FrontHolds]

theorem FrontHolds.pop_many {count : Nat} (front : FrontHolds count policies) :
    ∃ left, popMany count policies = ((queued policies).take count, left, none) ∧ queued left = (queued policies).drop count := by
  cases policies with
  | nil =>
    obtain rfl : count = 0 := Nat.eq_zero_of_le_zero front
    exact ⟨[], rfl, rfl⟩
  | cons head rest =>
    refine ⟨(head.1, head.2.drop count) :: rest, ?_, ?_⟩
    · rw [pop_many_cons count head.1 head.2 rest, if_pos (show count ≤ head.2.length from front)]
      exact congrArg (·, _, none) (take_append_of_le_length front).symm
    · exact (drop_append_of_le_length front).symm

theorem evict_groups_front {minNumPages : List Nat} (fronts : Forall₂ FrontHolds minNumPages s) : Enough minNumPages s → ∃ next,
    evictGroups minNumPages s = (minNumPages.zipWith take (s.map queued), next, none) ∧
      next.map queued = minNumPages.zipWith drop (s.map queued) := by
  induction fronts with
  | nil => exact fun _ => ⟨[], rfl, rfl⟩
  | @cons count policies counts groups front _ ih =>
    intro enough
    obtain ⟨here, others⟩ := forall₂_cons.mp enough
    obtain ⟨left, popped, shorter⟩ := front.pop_many
    obtain ⟨next, rest, queues⟩ := ih others
    refine ⟨left :: next, ?_, congrArg₂ cons shorter queues⟩
    rw [evictGroups, if_neg (Nat.not_lt_of_le here), popped, rest]
    rfl

theorem fronts_of_evict_groups {minNumPages : List Nat} (enough : Enough minNumPages s)
    (done : (evictGroups minNumPages s).2.2 = none) : Forall₂ FrontHolds minNumPages s := by
  induction enough with
  | nil => exact .nil
  | @cons count policies counts groups here _ ih =>
    rw [evictGroups, if_neg (Nat.not_lt_of_le here)] at done
    split at done
    · cases done
    · next popped => exact .cons ((pop_many_iff count policies).mp (congrArg (·.2.2) popped)) (ih done)

theorem Sorted.own (sorted : Sorted priority policies) {entry : Int × List Page}
    (mem : entry ∈ policies) : ∀ page ∈ entry.2, priority page = entry.1 := by
  induction policies with
  | nil => cases mem
  | cons head rest ih => grind [Sorted]

theorem Sorted.pairwise (sorted : Sorted priority policies) : (queued policies).Pairwise (priority · ≤ priority ·) := by
  induction policies with
  | nil => exact .nil
  | cons head rest ih =>
    obtain ⟨own, above, later⟩ := sorted
    refine pairwise_append.mpr ⟨pairwise_of_forall_mem_list fun first here second there => ?_, ih later, ?_⟩
    · exact Int.le_of_eq ((own first here).trans (own second there).symm)
    intro first here second there
    obtain ⟨queue, listed, inside⟩ := mem_flatten.mp there
    obtain ⟨entry, mem, rfl⟩ := mem_map.mp listed
    rw [own first here, later.own mem second inside]
    exact Int.le_of_lt (above entry mem)

theorem evicts_in_order_iff [DecidableEq Page] (group : Page → Nat) (groups : Nat) (s : Controller Page)
    (reached : Lib.Reachable (Step priority group) (List.replicate groups []) s) (minNumPages : List Nat)
    (enough : Enough minNumPages s) : (∀ policies ∈ s, (queued policies).Pairwise (priority · ≤ priority ·)) ∧
      (EvictsInOrder priority group minNumPages s ↔ Forall₂ FrontHolds minNumPages s) := by
  have sorted : ∀ policies ∈ s, Sorted priority policies :=
    Lib.reachable_invariant (fun s => ∀ policies ∈ s, Sorted priority policies) (fun s action next => sorted_step)
      _ s reached fun policies mem => by
        rw [eq_of_mem_replicate mem]
        trivial
  refine ⟨fun policies mem => (sorted policies mem).pairwise, fun evicted => ?_, fun fronts => ?_⟩
  · obtain ⟨next, done, _⟩ := evicted
    refine fronts_of_evict_groups enough ?_
    unfold evict at done
    split at done
    · next res => rw [res]
    · cases done
  · obtain ⟨next, done, queues⟩ := evict_groups_front fronts enough
    exact ⟨next, by rw [evict, done], queues⟩

theorem equal_priorities_evicted : ∃ s, Lib.Reachable (Step (fun _ : Nat => 0) fun _ => 0) (List.replicate 1 []) s ∧
    EvictsInOrder (fun _ : Nat => 0) (fun _ => 0) [2] s := by
  have first : Step (fun _ : Nat => 0) (fun _ => 0) [[]] (.schedule 1 false) [[(0, [1])]] := .schedule (by decide)
  have second : Step (fun _ : Nat => 0) (fun _ => 0) [[(0, [1])]] (.schedule 2 false) [[(0, [1, 2])]] := .schedule (by decide)
  have reached := (Lib.Reachable.refl.step first).step second
  exact ⟨_, reached, (evicts_in_order_iff _ 1 _ reached [2] (.cons (by decide) .nil)).2.mpr
    (.cons (by decide : 2 ≤ 2) .nil)⟩

-- The second pop finds the lower queue empty.
theorem eviction_stops_at_empty_queue : ∃ s, Lib.Reachable (Step Int.ofNat fun _ => 0) (List.replicate 1 []) s ∧ Enough [2] s ∧
    ¬EvictsInOrder Int.ofNat (fun _ => 0) [2] s := by
  refine ⟨[[(1, [1]), (2, [2])]], ?_, .cons (by decide) .nil, ?_⟩
  · have first : Step Int.ofNat (fun _ => 0) [[]] (.schedule 1 false) [[(1, [1])]] := .schedule (by decide)
    have second : Step Int.ofNat (fun _ => 0) [[(1, [1])]] (.schedule 2 false) [[(1, [1]), (2, [2])]] := .schedule (by decide)
    exact (Lib.Reachable.refl.step first).step second
  · rintro ⟨next, done, _⟩
    cases done

end
end TrtLlm.V2.Eviction
