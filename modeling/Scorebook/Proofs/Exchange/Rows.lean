import Mathlib.Data.List.Induction
import Scorebook.Proofs.Exact
import Scorebook.Outcomes
import Scorebook.Proofs.Columns

/-!
# Exchanging the sides of rows

When the two values of every row are exchanged, the pairs that are read from the rows are
exchanged, and the same rows cannot be read. What was a win is a loss, and in exact arithmetic the
effect sizes of a tally change sign or turn into their complement.
-/

namespace Scorebook

namespace PairedRow

/-- The row with its two values exchanged. -/
def exchanged (row : PairedRow) : PairedRow := ⟨row.key, row.rawB, row.rawA⟩

variable {β : Type} (read : RawValue → Option β)

/-- An exchanged row is read as the exchanged pair. -/
theorem read?_exchanged (row : PairedRow) :
    read? read row.exchanged = (read? read row).map Prod.swap := by
  cases hA : read row.rawA <;> cases hB : read row.rawB <;> simp [read?, exchanged, hA, hB]

/-- Exchanged rows give the exchanged pairs, in the same order. -/
theorem readPairs_exchanged (rows : List PairedRow) :
    readPairs read (rows.map exchanged) = (readPairs read rows).map Prod.swap := by
  rw [readPairs, readPairs, List.filterMap_map, List.map_filterMap]
  exact List.filterMap_congr fun row _ => read?_exchanged read row

/-- As many exchanged rows cannot be read as rows. -/
theorem unreadable_exchanged (rows : List PairedRow) :
    unreadable read (rows.map exchanged) = unreadable read rows := by
  rw [unreadable, unreadable, List.countP_map]
  exact List.countP_congr fun row _ => by simp [read?_exchanged]

end PairedRow

/-- The tally seen from the side of the first experiment. -/
def Tally.exchanged (tally : Tally) : Tally := ⟨tally.losses, tally.wins, tally.ties⟩

/-- The outcomes seen from the side of the first experiment. -/
def Outcomes.exchanged {α : Type} (outcomes : Outcomes α) : Outcomes α :=
  ⟨outcomes.tally.exchanged, outcomes.lossRate, outcomes.winRate, outcomes.tieRate⟩

namespace Tally

/-- A row that is recorded the other way round counts for the other side. -/
theorem record_exchanged (tally : Tally) (ordering : Ordering) :
    tally.exchanged.record ordering.swap = (tally.record ordering).exchanged := by
  cases ordering <;> rfl

/-- A tally has as many rows from either side. -/
@[simp]
theorem total_exchanged (tally : Tally) : tally.exchanged.total = tally.total := by
  simp only [total, exchanged]
  omega

/-- The tally of exchanged pairs is the exchanged tally, if the order of a pair turns around when
the pair is exchanged. -/
theorem foldl_record_exchanged {β : Type} (order : β × β → Ordering)
    (hswap : ∀ pair, order pair.swap = (order pair).swap) (pairs : List (β × β)) :
    (pairs.map Prod.swap).foldl (fun (tally : Tally) pair => tally.record (order pair)) empty =
      (pairs.foldl (fun (tally : Tally) pair => tally.record (order pair)) empty).exchanged := by
  induction pairs using List.reverseRecOn with
  | nil => rfl
  | append_singleton pairs pair ih =>
    simp only [List.map_append, List.map_singleton, List.foldl_append, List.foldl_cons,
      List.foldl_nil, ih, hswap, record_exchanged]

variable {α : Type} [Arithmetic α]

/-- The outcomes of an exchanged tally are the exchanged outcomes. -/
theorem outcomes_exchanged (tally : Tally) :
    tally.exchanged.outcomes = (tally.outcomes : Outcomes α).exchanged := by
  rw [outcomes, total_exchanged]
  rfl

variable {K : Type} [ExactArithmetic K]

/-- Cliff's delta changes its sign when the sides are exchanged. -/
theorem cliffsDelta?_exchanged (tally : Tally) :
    tally.exchanged.cliffsDelta? = (tally.cliffsDelta? : Option K).map (-·) := by
  unfold cliffsDelta?
  rw [total_exchanged]
  split_ifs with htotal
  · simp only [exchanged, Option.map_some, Option.some.injEq]
    ring
  · rfl

/-- A higher value of one side is no higher value of the other, and a tie counts half for both. -/
theorem superiority?_exchanged (tally : Tally) :
    tally.exchanged.superiority? = (tally.superiority? : Option K).map (1 - ·) := by
  unfold superiority?
  rw [total_exchanged]
  split_ifs with htotal
  · have hne : (tally.total : K) ≠ 0 := by
      exact_mod_cast htotal.ne'
    have hsum : (tally.total : K) = tally.wins + tally.losses + tally.ties := by
      exact_mod_cast rfl
    simp only [exchanged, Option.map_some, Option.some.injEq, ExactArithmetic.ofNat_eq_cast]
    field_simp
    rw [hsum]
    push_cast
    ring
  · rfl

end Tally

/-- Comparing two numbers the other way round gives the opposite order. -/
theorem compareNumbers_swap {K : Type} [ExactArithmetic K] (x y : K) :
    compareNumbers y x = (compareNumbers x y).swap := by
  simp only [compareNumbers, ExactArithmetic.less_eq_decide, decide_eq_true_eq]
  rcases lt_trichotomy x y with hlt | rfl | hgt
  · simp [hlt, hlt.not_gt]
  · simp
  · simp [hgt, hgt.not_gt]

end Scorebook
