import TrtLlm.Py.SchedulerV2Budget

set_option autoImplicit false

namespace TrtLlm.Py

variable {cumsum : List Int} {unit lo size remaining aligned : Nat}

def Splits (cumsum : List Int) (boundary : Nat) : Prop :=
  maskAt cumsum (boundary - 1) = some true ∧ maskAt cumsum boundary = some true

-- The multimodal run of a prompt with a boundary strictly inside.
structure RunAround (cumsum : List Int) (promptLen boundary first last : Nat) : Prop where
  before : first < boundary
  behind : boundary < last
  inside : last ≤ promptLen
  run : ∀ position, first ≤ position → position < last → maskAt cumsum position = some true
  starts : 0 < first → maskAt cumsum (first - 1) = some false
  stops : last < promptLen → maskAt cumsum last = some false

theorem RunAround.splits {promptLen boundary first last : Nat} (around : RunAround cumsum promptLen boundary first last) :
    Splits cumsum boundary :=
  have before := around.before
  ⟨around.run _ (by omega) (lt_of_le_of_lt (Nat.sub_le _ _) around.behind), around.run _ before.le around.behind⟩

theorem RunAround.unique {promptLen boundary first last otherFirst otherLast : Nat}
    (around : RunAround cumsum promptLen boundary first last)
    (other : RunAround cumsum promptLen boundary otherFirst otherLast) : first = otherFirst ∧ last = otherLast := by
  obtain ⟨before, behind, inside, run, starts, stops⟩ := around
  obtain ⟨otherBefore, otherBehind, otherInside, otherRun, otherStarts, otherStops⟩ := other
  constructor
  · rcases Nat.lt_trichotomy first otherFirst with less | same | more
    · cases (otherStarts (by omega)).symm.trans (run _ (by omega) (by omega))
    · exact same
    · cases (starts (by omega)).symm.trans (otherRun _ (by omega) (by omega))
  · rcases Nat.lt_trichotomy last otherLast with less | same | more
    · cases (stops (by omega)).symm.trans (otherRun _ (by omega) less)
    · exact same
    · cases (otherStops (by omega)).symm.trans (run _ (by omega) more)

theorem block_end_spec {left idx blockEnd : Nat} (found : blockEndFrom cumsum left idx = some blockEnd) :
    (idx ≤ blockEnd ∧ blockEnd ≤ idx + left) ∧
      (∀ position, idx ≤ position → position < blockEnd → maskAt cumsum position = some true) ∧
      (blockEnd < idx + left → maskAt cumsum blockEnd = some false) := by
  induction left generalizing idx with
  | zero =>
    cases found
    exact ⟨⟨le_rfl, le_rfl⟩, fun _ above below => absurd below (by omega), fun below => absurd below (Nat.lt_irrefl _)⟩
  | succ left ih =>
    unfold blockEndFrom at found
    split at found
    · cases found
    · cases found
      exact ⟨⟨le_rfl, by omega⟩, fun _ above below => absurd below (by omega), fun _ => ‹_›⟩
    · rename_i here
      obtain ⟨⟨after, within⟩, run, stops⟩ := ih found
      refine ⟨⟨by omega, by omega⟩, fun position above below => ?_, fun below => stops (by omega)⟩
      rcases Nat.eq_or_lt_of_le above with rfl | later
      · exact here
      · exact run position later below

namespace KVCacheV2Scheduler

-- The two walks of the source find the run.
theorem walks_around {promptLen boundary blockEnd blockStart : Nat} (pos : 0 < boundary) (inner : Splits cumsum boundary)
    (short : boundary < promptLen) (endFound : blockEndFrom cumsum (promptLen - boundary) boundary = some blockEnd)
    (startFound : blockStartFrom cumsum boundary = some blockStart) :
    RunAround cumsum promptLen boundary blockStart blockEnd := by
  obtain ⟨⟨after, within⟩, later, stops⟩ := block_end_spec endFound
  obtain ⟨before, earlier, starts⟩ := block_start_spec startFound
  have first : blockStart < boundary := by
    refine lt_of_le_of_ne before fun same => ?_
    rw [same] at starts
    cases (starts pos).symm.trans inner.1
  have last : boundary < blockEnd := by
    refine lt_of_le_of_ne after fun same => ?_
    rw [← same] at stops
    cases (stops (by omega)).symm.trans inner.2
  refine ⟨first, last, by omega, fun position above below => ?_, starts, fun below => stops (by omega)⟩
  rcases Nat.lt_or_ge position boundary with early | late
  · exact earlier position above early
  · exact later position late below

section
variable {first last : Nat} (around : RunAround cumsum (lo + remaining) (lo + size) first last)

include around

theorem snap_up_spec : size < snapUp unit lo (lo + remaining) last ∧ snapUp unit lo (lo + remaining) last ≤ remaining ∧
    (0 < unit → snapUp unit lo (lo + remaining) last < remaining → unit ∣ lo + snapUp unit lo (lo + remaining) last) := by
  have behind := around.behind
  have inside := around.inside
  unfold snapUp
  split
  · rename_i rounds
    have below := Nat.div_mul_le_self (last + unit - 1) unit
    have above := Nat.lt_div_mul_add (a := last + unit - 1) rounds.1
    refine ⟨by omega, by omega, fun _ short => ?_⟩
    have same : lo + (min ((last + unit - 1) / unit * unit) (lo + remaining) - lo) = (last + unit - 1) / unit * unit := by omega
    rw [same]
    exact Nat.dvd_mul_left _ _
  · rename_i whole
    refine ⟨by omega, by omega, fun some_unit short => absurd ⟨some_unit, ?_⟩ whole⟩
    omega

theorem snap_down_spec (pos : 0 < snapDown unit lo first) : snapDown unit lo first < size ∧
    (0 < unit → unit ∣ lo + snapDown unit lo first) := by
  have before := around.before
  unfold snapDown at pos ⊢
  split at pos
  · rename_i rounds
    have below := Nat.div_mul_le_self first unit
    rw [if_pos rounds]
    refine ⟨by omega, fun _ => ?_⟩
    rw [Nat.add_sub_cancel' (by omega)]
    exact Nat.dvd_mul_left _ _
  · rename_i none_given
    rw [if_neg none_given]
    exact ⟨by omega, fun some_unit => absurd some_unit none_given⟩

end

variable (sched : KVCacheV2Scheduler)

-- A proposed boundary inside a run moves to the run's end, rounded up to the unit, if the chunk up to there fits, and to
-- its start, rounded down, otherwise; there is no run where it lands, and the shorter chunk fits.
def RunFits (unit lo size remaining : Nat) (budget : Option Int) (cumsum : List Int) : Prop :=
  ∀ first last, RunAround cumsum (lo + remaining) (lo + size) first last →
    let up := snapUp unit lo (lo + remaining) last
    let down := snapDown unit lo first
    if withinBudget budget up && within sched.maxContextLength up then ¬ Splits cumsum (lo + up)
    else ¬ Splits cumsum (lo + down) ∧ (withinBudget budget down && within sched.maxContextLength down) = true

-- No run is split, a size other than the proposed one fits, and the boundary stays on the unit's grid.
structure Kept (unit lo size : Nat) (budget : Option Int) (cumsum : List Int) (aligned : Nat) : Prop where
  unsplit : ¬ Splits cumsum (lo + aligned)
  fits : aligned ≠ size → (withinBudget budget aligned && within sched.maxContextLength aligned) = true
  grid : unit ∣ lo + size → unit ∣ lo + aligned

theorem snap_kept_iff {budget : Option Int} (pos : 0 < lo + size) (inner : Splits cumsum (lo + size))
    (done : sched.snapToBlock unit lo size remaining budget cumsum = some aligned) (before : lo + size < lo + remaining)
    (positive : 0 < aligned) (short : aligned < remaining) :
    sched.Kept unit lo size budget cumsum aligned ↔ sched.RunFits unit lo size remaining budget cumsum := by
  unfold snapToBlock at done
  dsimp only at done
  split at done
  · rename_i last first endFound startFound
    have around := walks_around pos inner before endFound startFound
    have only : sched.RunFits unit lo size remaining budget cumsum ↔
        if withinBudget budget (snapUp unit lo (lo + remaining) last) &&
          within sched.maxContextLength (snapUp unit lo (lo + remaining) last)
        then ¬ Splits cumsum (lo + snapUp unit lo (lo + remaining) last)
        else ¬ Splits cumsum (lo + snapDown unit lo first) ∧
          (withinBudget budget (snapDown unit lo first) && within sched.maxContextLength (snapDown unit lo first)) = true := by
      refine ⟨fun fits => fits first last around, fun fits otherFirst otherLast other => ?_⟩
      obtain ⟨rfl, rfl⟩ := around.unique other
      exact fits
    have grid : 0 < unit ∨ ¬ unit ∣ lo + size := by
      rcases Nat.eq_zero_or_pos unit with rfl | some_unit
      · exact .inr fun divides => absurd (Nat.eq_zero_of_zero_dvd divides) (by omega)
      · exact .inl some_unit
    obtain ⟨longer, within_prompt, up_grid⟩ := @snap_up_spec cumsum unit lo size remaining first last around
    rw [only]
    split at done
    · cases done
    split at done
    · rename_i up
      cases done
      simp only [Bool.and_eq_true] at up
      rw [if_pos (by simp [up.1.1])]
      refine ⟨Kept.unsplit, fun unsplit => ⟨unsplit, fun _ => by simp [up.1.1], fun divides => ?_⟩⟩
      exact up_grid (grid.resolve_right (not_not_intro divides)) short
    · rename_i up
      cases done
      have refused : ¬ (withinBudget budget (snapUp unit lo (lo + remaining) last) &&
          within sched.maxContextLength (snapUp unit lo (lo + remaining) last)) = true := by
        intro fits
        exact up (by simp [fits, longer, within_prompt])
      obtain ⟨shorter, down_grid⟩ := @snap_down_spec cumsum unit lo size remaining first last around positive
      rw [if_neg refused]
      refine ⟨fun kept => ⟨kept.unsplit, kept.fits shorter.ne⟩, fun fits => ⟨fits.1, fun _ => fits.2, fun divides => ?_⟩⟩
      exact down_grid (grid.resolve_right (not_not_intro divides))
  · cases done

end KVCacheV2Scheduler

def images (cumsum : List Int) : Request :=
  { promptOf 1 8 0 with mmBidirectionalBlocks := true, multimodalEmbedMaskCumsum := some cumsum }

end TrtLlm.Py
