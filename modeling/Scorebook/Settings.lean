import Scorebook.Decimal.Layout

/-!
# Settings of a computation

The settings fix the width of confidence intervals, the level of significance, the correction
of the signed-rank test, the reported percentiles and the number of workers.
-/

namespace Scorebook

/-- What a user may choose. -/
structure Settings where
  /-- The critical value of the confidence intervals. -/
  zCritical : Float
  /-- A probability below this level is significant. -/
  significanceLevel : Float
  /-- Whether the signed-rank statistic is moved half a unit towards its mean. -/
  continuityCorrection : Bool
  /-- The percentiles for which ordinal scores report a category. -/
  percentiles : List Nat
  /-- How many scores may be computed at the same time. -/
  maxWorkers : Nat

namespace Settings

/-- Intervals and tests at the five percent level, five percentiles, and one worker. -/
def standard : Settings := ⟨1.96, 0.05, true, [10, 25, 50, 75, 90], 1⟩

/-- The first setting that is out of range, and the number found there. -/
inductive Fault where
  | zCritical (found : Float)
  | significanceLevel (found : Float)
  | percentile (found : Nat)
  | maxWorkers

/-- The text of a fault. -/
def Fault.message : Fault → String
  | zCritical found =>
    "z_critical must be a positive finite number, got " ++ plainNumber found
  | significanceLevel found =>
    "significance_level must be in [0, 1], got " ++ plainNumber found
  | percentile found => "ordinal_percentiles must be in [1, 100], got " ++ toString found
  | maxWorkers => "max_workers must be >= 1, got 0"

/-- Accepts settings in range, and otherwise names the first that is not. -/
def validate (settings : Settings) : Except Fault Unit :=
  if ¬(settings.zCritical.isFinite ∧ 0.0 < settings.zCritical) then
    .error (.zCritical settings.zCritical)
  else if ¬(0.0 ≤ settings.significanceLevel ∧ settings.significanceLevel ≤ 1.0) then
    .error (.significanceLevel settings.significanceLevel)
  else match settings.percentiles.find? fun p => p = 0 ∨ 100 < p with
    | some p => .error (.percentile p)
    | none => if settings.maxWorkers = 0 then .error .maxWorkers else .ok ()

/-- Settings are accepted exactly if all of them are in range. -/
theorem validate_eq_ok_iff {settings : Settings} : settings.validate = .ok () ↔
    (settings.zCritical.isFinite ∧ 0.0 < settings.zCritical) ∧
    (0.0 ≤ settings.significanceLevel ∧ settings.significanceLevel ≤ 1.0) ∧
    (∀ percent ∈ settings.percentiles, 0 < percent ∧ percent ≤ 100) ∧
    settings.maxWorkers ≠ 0 := by
  unfold validate
  by_cases hcritical : ¬(settings.zCritical.isFinite ∧ 0.0 < settings.zCritical)
  · rw [if_pos hcritical]
    exact iff_of_false (by simp) fun h => hcritical h.1
  by_cases hlevel : ¬(0.0 ≤ settings.significanceLevel ∧ settings.significanceLevel ≤ 1.0)
  · rw [if_neg hcritical, if_pos hlevel]
    exact iff_of_false (by simp) fun h => hlevel h.2.1
  rw [if_neg hcritical, if_neg hlevel, and_iff_right (Decidable.not_not.mp hcritical),
    and_iff_right (Decidable.not_not.mp hlevel)]
  cases hfound : settings.percentiles.find? fun p => p = 0 ∨ 100 < p with
  | some percent =>
    have hoff := List.find?_some hfound
    simp only [decide_eq_true_eq] at hoff
    refine iff_of_false (by simp) fun h => ?_
    have hrange := h.1 percent (List.mem_of_find?_eq_some hfound)
    omega
  | none =>
    have hrange : ∀ percent ∈ settings.percentiles, 0 < percent ∧ percent ≤ 100 := by
      intro percent hpercent
      have hnot := List.find?_eq_none.mp hfound percent hpercent
      simp only [decide_eq_true_eq, not_or] at hnot
      omega
    rw [and_iff_right hrange]
    by_cases hworkers : settings.maxWorkers = 0 <;> simp [hworkers]

end Settings

end Scorebook
