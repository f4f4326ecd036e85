import Mathlib.Data.List.GetD
import Mathlib.Tactic.Linarith
import Scorebook.Proofs.Numeric.Columns
import Scorebook.Proofs.Numeric.Sorting

/-!
# Percentiles in exact arithmetic

The fraction of a percentile is a rank between the first and the last of the sorted values, and the
percentile is the value at that rank on the broken line through the values. Without rounding it lies
between the values around its rank, and it does not fall while the rank grows, within a segment of
the line or across its joints. A summary therefore reports its percentiles in line between the least
and the greatest value.
-/

namespace Scorebook

namespace Numeric

open Arithmetic

variable {K : Type} [ExactArithmetic K]

/-- The rank of a fraction among some values; a fraction outside of the unit interval counts as the
nearer end of it. -/
def rankAmong (length : ℕ) (fraction : K) : K := max 0 (min 1 fraction) * (length - 1)

/-- The nearest number of the unit interval by its bounds. -/
theorem intoUnit_eq_max (x : K) : intoUnit x = max 0 (min 1 x) := by
  simp only [intoUnit, ExactArithmetic.less_eq_decide, ExactArithmetic.ofNat_eq_cast,
    Nat.cast_zero, Nat.cast_one, decide_eq_true_eq]
  rcases lt_or_ge x 0 with hneg | hnonneg
  · have hmin : min 1 x ≤ 0 := (min_le_right 1 x).trans hneg.le
    rw [if_pos hneg, if_neg zero_lt_one.not_gt, max_eq_left hmin]
  · rw [if_neg hnonneg.not_gt, max_eq_right (le_min zero_le_one hnonneg)]
    split_ifs with hone
    · exact (min_eq_left hone.le).symm
    · exact (min_eq_right (not_lt.mp hone)).symm

section Rank

variable {length : ℕ} (hlength : 0 < length)
include hlength

/-- There is a rank for the last value. -/
theorem zero_le_last : (0 : K) ≤ length - 1 :=
  sub_nonneg.mpr (Nat.one_le_cast.mpr hlength)

/-- A rank is not below that of the first value. -/
theorem rankAmong_nonneg (fraction : K) : 0 ≤ rankAmong length fraction :=
  mul_nonneg (le_max_left 0 _) (zero_le_last hlength)

/-- A rank is not above that of the last value. -/
theorem rankAmong_le (fraction : K) : rankAmong length fraction ≤ length - 1 :=
  mul_le_of_le_one_left (zero_le_last hlength) (max_le zero_le_one (min_le_left 1 fraction))

/-- A greater fraction has no smaller rank. -/
theorem rankAmong_mono {fraction other : K} (hle : fraction ≤ other) :
    rankAmong length fraction ≤ rankAmong length other :=
  mul_le_mul_of_nonneg_right (max_le_max_left 0 (min_le_min_left 1 hle)) (zero_le_last hlength)

/-- The whole rank above a rank is that of a value. -/
theorem ceil_rankAmong_lt (fraction : K) : ⌈rankAmong length fraction⌉₊ < length := by
  have hceil : ⌈rankAmong length fraction⌉₊ ≤ length - 1 := by
    rw [Nat.ceil_le, Nat.cast_sub hlength, Nat.cast_one]
    exact rankAmong_le hlength fraction
  omega

/-- The whole rank below a rank is that of a value. -/
theorem floor_rankAmong_lt (fraction : K) : ⌊rankAmong length fraction⌋₊ < length :=
  (Nat.floor_le_ceil _).trans_lt (ceil_rankAmong_lt hlength fraction)

end Rank

/-- The value at a rank on the broken line through some values. -/
def valueAt (sorted : List K) (rank : K) : K :=
  interpolate (sorted.getD ⌊rank⌋₊ 0) (sorted.getD ⌈rank⌉₊ 0) (rank - ⌊rank⌋₊)

/-- An interpolated value is the lower value and a share of the step to the upper one. -/
theorem interpolate_eq (lower upper weight : K) :
    interpolate lower upper weight = lower + (upper - lower) * weight := by
  simp only [interpolate, ExactArithmetic.ofNat_eq_cast, Nat.cast_one]
  ring

/-- The value at a whole rank is the one that is listed there. -/
theorem valueAt_natCast (sorted : List K) (k : ℕ) : valueAt sorted (k : K) = sorted.getD k 0 := by
  rw [valueAt, Nat.floor_natCast, Nat.ceil_natCast, interpolate_eq, sub_self, sub_self, mul_zero,
    add_zero]

/-- The percentile of two values or more is taken between the whole ranks around its rank. -/
theorem percentile?_of_two_le {sorted : List K} (hlength : 2 ≤ sorted.length) (fraction : K) :
    let rank := rankAmong sorted.length fraction
    percentile? sorted fraction =
      if ⌊rank⌋₊ = ⌈rank⌉₊ then sorted[⌊rank⌋₊]?
      else do return interpolate (← sorted[⌊rank⌋₊]?) (← sorted[⌈rank⌉₊]?) (rank - ⌊rank⌋₊) := by
  intro rank
  have hrank : intoUnit fraction * ofNat (sorted.length - 1) = rank := by
    rw [intoUnit_eq_max, ExactArithmetic.ofNat_eq_cast, Nat.cast_sub (by omega), Nat.cast_one]
    rfl
  rw [← hrank, ← ExactArithmetic.ofNat_eq_cast]
  match sorted with
  | _ :: _ :: _ => rfl

/-- The percentile of some values is the value at its rank. -/
theorem percentile?_eq {sorted : List K} (hne : sorted ≠ []) (fraction : K) :
    percentile? sorted fraction = some (valueAt sorted (rankAmong sorted.length fraction)) := by
  have hlength := List.length_pos_iff.mpr hne
  by_cases htwo : 2 ≤ sorted.length
  · have hfloor := floor_rankAmong_lt hlength fraction
    have hceil := ceil_rankAmong_lt hlength fraction
    rw [percentile?_of_two_le htwo]
    split_ifs with hwhole
    · -- A rank that is its own floor is whole, and then nothing is interpolated.
      have hrank : ((⌊rankAmong sorted.length fraction⌋₊ : ℕ) : K) =
          rankAmong sorted.length fraction := by
        refine (Nat.floor_le (rankAmong_nonneg hlength fraction)).antisymm ?_
        rw [hwhole]
        exact Nat.le_ceil _
      rw [← hrank, valueAt_natCast, List.getD_eq_getElem _ _ (by simpa using hfloor)]
      simp [hfloor]
    · simp [valueAt, hfloor, hceil]
  · obtain ⟨x, rfl⟩ := List.length_eq_one_iff.mp (by omega : sorted.length = 1)
    have hrank : rankAmong [x].length fraction = ((0 : ℕ) : K) := by simp [rankAmong]
    rw [hrank, valueAt_natCast]
    rfl

/-- A rank is at most one above the whole rank below it. -/
theorem weight_mem {rank : K} (hrank : 0 ≤ rank) :
    0 ≤ rank - ⌊rank⌋₊ ∧ rank - ⌊rank⌋₊ ≤ 1 :=
  ⟨sub_nonneg.mpr (Nat.floor_le hrank), by linarith [Nat.lt_floor_add_one rank]⟩

section Ascending

variable {sorted : List K} (hsorted : sorted.Pairwise (· ≤ ·))
include hsorted

/-- Of two listed values the one with the greater rank is not smaller. -/
theorem getD_le_getD {i j : ℕ} (hle : i ≤ j) (hlength : j < sorted.length) :
    sorted.getD i 0 ≤ sorted.getD j 0 := by
  rw [List.getD_eq_getElem _ _ hlength, List.getD_eq_getElem _ _ (hle.trans_lt hlength)]
  rcases hle.eq_or_lt with rfl | hlt
  · exact le_rfl
  · exact List.pairwise_iff_getElem.mp hsorted i j _ hlength hlt

variable {rank : K} (hrank : 0 ≤ rank) (hlength : ⌈rank⌉₊ < sorted.length)
include hrank hlength

/-- The line does not fall below the value at the whole rank below. -/
theorem floor_le_valueAt : sorted.getD ⌊rank⌋₊ 0 ≤ valueAt sorted rank := by
  have hstep := getD_le_getD hsorted (Nat.floor_le_ceil rank) hlength
  rw [valueAt, interpolate_eq]
  exact le_add_of_nonneg_right (mul_nonneg (sub_nonneg.mpr hstep) (weight_mem hrank).1)

/-- The line does not rise above the value at the whole rank above. -/
theorem valueAt_le_ceil : valueAt sorted rank ≤ sorted.getD ⌈rank⌉₊ 0 := by
  have hstep := getD_le_getD hsorted (Nat.floor_le_ceil rank) hlength
  have hshare := mul_le_of_le_one_right (sub_nonneg.mpr hstep) (weight_mem hrank).2
  rw [valueAt, interpolate_eq]
  linarith

omit hlength in
/-- The line does not fall. -/
theorem valueAt_mono {other : K} (hle : rank ≤ other) (hother : ⌈other⌉₊ < sorted.length) :
    valueAt sorted rank ≤ valueAt sorted other := by
  have hfloor : ⌊rank⌋₊ ≤ ⌊other⌋₊ := Nat.floor_le_floor hle
  have hceil : ⌈rank⌉₊ ≤ ⌈other⌉₊ := Nat.ceil_le_ceil hle
  have hrankCeil : ⌈rank⌉₊ ≤ ⌊rank⌋₊ + 1 := Nat.ceil_le_floor_add_one rank
  have hotherCeil : ⌈other⌉₊ ≤ ⌊other⌋₊ + 1 := Nat.ceil_le_floor_add_one other
  by_cases hacross : ⌈rank⌉₊ ≤ ⌊other⌋₊
  · -- A joint lies between the two ranks.
    have hjoint : ⌊other⌋₊ < sorted.length := (Nat.floor_le_ceil other).trans_lt hother
    calc valueAt sorted rank
        ≤ sorted.getD ⌈rank⌉₊ 0 := valueAt_le_ceil hsorted hrank (hceil.trans_lt hother)
      _ ≤ sorted.getD ⌊other⌋₊ 0 := getD_le_getD hsorted hacross hjoint
      _ ≤ valueAt sorted other := floor_le_valueAt hsorted (hrank.trans hle) hother
  · -- Both ranks are on one segment.
    have hsameFloor : ⌊rank⌋₊ = ⌊other⌋₊ := by omega
    have hsameCeil : ⌈rank⌉₊ = ⌈other⌉₊ := by omega
    have hstep := getD_le_getD hsorted (Nat.floor_le_ceil other) hother
    rw [valueAt, valueAt, interpolate_eq, interpolate_eq, hsameFloor, hsameCeil]
    exact add_le_add_right
      (mul_le_mul_of_nonneg_left (sub_le_sub_right hle _) (sub_nonneg.mpr hstep)) _

end Ascending

/-- A value lies at a rank of some values: between the values at the whole ranks around it, and at
a whole rank it is the value there. -/
structure LiesAt (sorted : List K) (rank value : K) : Prop where
  floor_lt : ⌊rank⌋₊ < sorted.length
  ceil_lt : ⌈rank⌉₊ < sorted.length
  lower_le : sorted[⌊rank⌋₊] ≤ value
  le_upper : value ≤ sorted[⌈rank⌉₊]
  whole : ∀ k : ℕ, rank = k → sorted[k]? = some value

/-- The value at the rank of a fraction lies at this rank. -/
theorem liesAt_valueAt {sorted : List K} (hne : sorted ≠ []) (hsorted : sorted.Pairwise (· ≤ ·))
    (fraction : K) : LiesAt sorted (rankAmong sorted.length fraction)
      (valueAt sorted (rankAmong sorted.length fraction)) := by
  have hlength := List.length_pos_iff.mpr hne
  have hrank := rankAmong_nonneg hlength fraction
  have hfloor := floor_rankAmong_lt hlength fraction
  have hceil := ceil_rankAmong_lt hlength fraction
  constructor
  case floor_lt => exact hfloor
  case ceil_lt => exact hceil
  case lower_le =>
    rw [← List.getD_eq_getElem _ 0]
    exact floor_le_valueAt hsorted hrank hceil
  case le_upper =>
    rw [← List.getD_eq_getElem _ 0]
    exact valueAt_le_ceil hsorted hrank hceil
  case whole =>
    intro k hk
    rw [hk, Nat.ceil_natCast] at hceil
    rw [hk, valueAt_natCast, List.getD_eq_getElem _ _ hceil, List.getElem?_eq_getElem hceil]

namespace Summary

variable {α : Type}

/-- The order statistics of a summary, from the least value to the greatest. -/
def landmarks (summary : Summary α) : List (Option α) :=
  [summary.least, summary.p10, summary.p25, summary.p50, summary.p75, summary.p90,
    summary.greatest]

/-- A summary reports all its order statistics, in line between the least and the greatest of the
values. -/
structure InLine (summary : Summary K) (values : List K) : Prop where
  ascending : ∃ landmarks : List K,
    summary.landmarks = landmarks.map some ∧ landmarks.Pairwise (· ≤ ·)
  least : ∃ least, summary.least = some least ∧ IsLeast {x | x ∈ values} least
  greatest : ∃ greatest, summary.greatest = some greatest ∧ IsGreatest {x | x ∈ values} greatest

end Summary

section Ends

variable {sorted : List K}

/-- The first of some values is their percentile for the fraction zero. -/
theorem head?_eq_percentile? (hne : sorted ≠ []) : sorted.head? = percentile? sorted 0 := by
  have hlength := List.length_pos_iff.mpr hne
  have hrank : rankAmong sorted.length (0 : K) = ((0 : ℕ) : K) := by simp [rankAmong]
  rw [percentile?_eq hne, hrank, valueAt_natCast, List.getD_eq_getElem _ _ hlength,
    List.head?_eq_getElem?, List.getElem?_eq_getElem hlength]

/-- The last of some values is their percentile for the fraction one. -/
theorem getLast?_eq_percentile? (hne : sorted ≠ []) : sorted.getLast? = percentile? sorted 1 := by
  have hlength := List.length_pos_iff.mpr hne
  have hlast : sorted.length - 1 < sorted.length := by omega
  have hrank : rankAmong sorted.length (1 : K) = ((sorted.length - 1 : ℕ) : K) := by
    rw [rankAmong, min_self, max_eq_right zero_le_one, one_mul, Nat.cast_sub hlength, Nat.cast_one]
  rw [percentile?_eq hne, hrank, valueAt_natCast, List.getD_eq_getElem _ _ hlast,
    List.getLast?_eq_getElem?, List.getElem?_eq_getElem hlast]

variable (hsorted : sorted.Pairwise (· ≤ ·))
include hsorted

/-- The first of ascending values is the least. -/
theorem exists_isLeast_head? (hne : sorted ≠ []) :
    ∃ x, sorted.head? = some x ∧ IsLeast {y | y ∈ sorted} x := by
  obtain ⟨x, rest, rfl⟩ := List.exists_cons_of_ne_nil hne
  refine ⟨x, rfl, List.mem_cons_self, fun y hy => ?_⟩
  rcases List.mem_cons.mp hy with rfl | hrest
  · exact le_rfl
  · exact List.rel_of_pairwise_cons hsorted hrest

/-- The last of ascending values is the greatest. -/
theorem exists_isGreatest_getLast? (hne : sorted ≠ []) :
    ∃ x, sorted.getLast? = some x ∧ IsGreatest {y | y ∈ sorted} x := by
  obtain ⟨rest, x, rfl⟩ := (List.eq_nil_or_concat' sorted).resolve_left hne
  refine ⟨x, by simp, by simp, fun y hy => ?_⟩
  rcases List.mem_append.mp hy with hrest | hlast
  · exact (List.pairwise_append.mp hsorted).2.2 y hrest x (List.mem_singleton_self x)
  · exact (List.mem_singleton.mp hlast).le

end Ends

/-- The percentiles of ascending values ascend with their fractions. -/
theorem percentile?_ascending {sorted : List K} (hne : sorted ≠ [])
    (hsorted : sorted.Pairwise (· ≤ ·)) {fractions : List K}
    (hfractions : fractions.Pairwise (· ≤ ·)) : ∃ values : List K,
      fractions.map (percentile? sorted) = values.map some ∧ values.Pairwise (· ≤ ·) := by
  have hlength := List.length_pos_iff.mpr hne
  refine ⟨fractions.map fun fraction => valueAt sorted (rankAmong sorted.length fraction), ?_, ?_⟩
  · rw [List.map_map]
    exact List.map_congr_left fun fraction _ => percentile?_eq hne fraction
  · refine List.pairwise_map.mpr (hfractions.imp fun hle => ?_)
    exact valueAt_mono hsorted (rankAmong_nonneg hlength _) (rankAmong_mono hlength hle)
      (ceil_rankAmong_lt hlength _)

/-- The summary of a column with a number has its order statistics in line. -/
theorem summary_inLine (settings : Settings) {column : List RawValue}
    (hnumbers : column.filterMap (readNumber? (α := K)) ≠ []) :
    ((Sample.ofColumn column).summary settings).InLine
      (column.filterMap (readNumber? (α := K))) := by
  set values := column.filterMap (readNumber? (α := K)) with hvalues
  have hmem (x : K) : x ∈ sortValues values ↔ x ∈ values := List.mem_mergeSort
  have hne : sortValues values ≠ [] := by
    obtain ⟨x, hx⟩ := List.exists_mem_of_ne_nil _ hnumbers
    exact List.ne_nil_of_mem ((hmem x).mpr hx)
  have hsorted : (sortValues values).Pairwise (· ≤ ·) := by
    simpa using sortValues_ascending values
  have hsummary : ((Sample.ofColumn column).summary settings : Summary K).landmarks =
      [0, 10 / 100, 25 / 100, 50 / 100, 75 / 100, 90 / 100, 1].map
        (percentile? (sortValues values)) := by
    simp [Summary.landmarks, Sample.summary, Sample.ofColumn, hundredths?, ← hvalues,
      head?_eq_percentile? hne, getLast?_eq_percentile? hne]
  have hset : {x | x ∈ sortValues values} = {x | x ∈ values} := Set.ext hmem
  constructor
  case ascending =>
    rw [hsummary]
    refine percentile?_ascending hne hsorted ?_
    norm_num
  case least =>
    rw [← hset]
    simpa [Sample.summary, Sample.ofColumn, ← hvalues] using exists_isLeast_head? hsorted hne
  case greatest =>
    rw [← hset]
    simpa [Sample.summary, Sample.ofColumn, ← hvalues] using
      exists_isGreatest_getLast? hsorted hne

/-- The percentile of ascending values lies at the rank of its fraction and does not fall while the
fraction grows. A summary of rows, one of which has a number, therefore reports its percentiles in
line between the least and the greatest number. -/
theorem percentile?_inLine :
    (∀ sorted : List K, sorted ≠ [] → sorted.Pairwise (· ≤ ·) →
      (∀ fraction, ∃ value, percentile? sorted fraction = some value ∧
        LiesAt sorted (rankAmong sorted.length fraction) value) ∧
      ∀ fraction other, fraction ≤ other → ∃ value later, percentile? sorted fraction = some value ∧
        percentile? sorted other = some later ∧ value ≤ later) ∧
    ∀ (settings : Settings) (column : List RawValue),
      column.filterMap (readNumber? (α := K)) ≠ [] →
      ((column.foldl Sample.pushRaw Sample.empty).summary settings).InLine
        (column.filterMap (readNumber? (α := K))) := by
  refine ⟨fun sorted hne hsorted => ⟨fun fraction => ?_, fun fraction other hle => ?_⟩, ?_⟩
  · exact ⟨_, percentile?_eq hne fraction, liesAt_valueAt hne hsorted fraction⟩
  · have hlength := List.length_pos_iff.mpr hne
    refine ⟨_, _, percentile?_eq hne fraction, percentile?_eq hne other, ?_⟩
    exact valueAt_mono hsorted (rankAmong_nonneg hlength fraction) (rankAmong_mono hlength hle)
      (ceil_rankAmong_lt hlength other)
  · intro settings column hnumbers
    rw [Sample.foldl_pushRaw]
    exact summary_inLine settings hnumbers

/-- Fractions on both sides of a joint of three values, and rows out of order with a label that is
no number. -/
theorem percentile?_inLine_across_joint :
    let sorted : List ℚ := [1, 2, 4]
    let column : List RawValue := [.label "4", .label "none", .label "-1", .label "2"]
    (sorted ≠ [] ∧ sorted.Pairwise (· ≤ ·) ∧
      (∃ value, percentile? sorted (3 / 8) = some value ∧
        LiesAt sorted (rankAmong 3 (3 / 8)) value) ∧
      ∃ value later, percentile? sorted (3 / 8) = some value ∧
        percentile? sorted (5 / 8) = some later ∧ value ≤ later) ∧
    column.filterMap (readNumber? (α := ℚ)) = [4, -1, 2] ∧
    ((column.foldl Sample.pushRaw Sample.empty).summary .standard).InLine
      ([4, -1, 2] : List ℚ) := by
  intro sorted column
  have hne : sorted ≠ [] := by decide
  have hsorted : sorted.Pairwise (· ≤ ·) := by decide +kernel
  have hnumbers : column.filterMap (readNumber? (α := ℚ)) = [4, -1, 2] := by decide +kernel
  obtain ⟨hpercentiles, hsummary⟩ := percentile?_inLine (K := ℚ)
  obtain ⟨hlies, hmono⟩ := hpercentiles sorted hne hsorted
  have hline := hsummary .standard column (by rw [hnumbers]; decide)
  rw [hnumbers] at hline
  exact ⟨⟨hne, hsorted, hlies _, hmono _ _ (by norm_num)⟩, hnumbers, hline⟩

end Numeric

end Scorebook
