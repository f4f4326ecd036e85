import Mathlib.Algebra.BigOperators.Group.Finset.Sigma
import Mathlib.Algebra.Field.Defs
import Mathlib.Data.Finset.Dedup
import Mathlib.Data.Set.Prod
import Mathlib.Tactic.Ring
import Scorebook.Proofs.Counts

/-!
# Measures of paired categories

Most of what a nominal comparison reports does not name a category: the numbers of pairs, of equal
pairs and of categories, the statistic of symmetry and that of independence. Such a measure is
defined by the pairs of categories alone. It does not depend on the order of the pairs nor on what
the categories are, as long as different categories stay different, and it is the same from either
side.
-/

namespace Scorebook.Nominal

variable {β γ : Type} [DecidableEq β] [DecidableEq γ] {K : Type} [Field K]

/-- What pairs of categories measure without naming a category. -/
structure Measures (K : Type) where
  paired : ℕ
  /-- The number of pairs of equal categories. -/
  agreeing : ℕ
  /-- The number of categories on either side. -/
  categories : ℕ
  /-- The number of categories on the side that has fewer. -/
  fewer : ℕ
  symmetry : K
  independence : K

/-- The categories on the first side of some pairs. -/
def firsts (pairs : List (β × β)) : Finset β := (pairs.map (·.1)).toFinset

/-- The categories on the second side of some pairs. -/
def seconds (pairs : List (β × β)) : Finset β := (pairs.map (·.2)).toFinset

/-- The categories on either side of some pairs. -/
def occurring (pairs : List (β × β)) : Finset β := firsts pairs ∪ seconds pairs

/-- What two categories contribute to the statistic of symmetry. -/
def imbalance (pairs : List (β × β)) (x y : β) : K :=
  ((pairs.count (x, y) : K) - pairs.count (y, x)) ^ 2 /
    ((pairs.count (x, y) : K) + pairs.count (y, x))

/-- How often two categories would meet if the sides were independent. -/
def expected (pairs : List (β × β)) (x y : β) : K :=
  ((pairs.map (·.1)).count x : K) * (pairs.map (·.2)).count y / pairs.length

/-- What two categories contribute to the statistic of independence. -/
def dependence (pairs : List (β × β)) (x y : β) : K :=
  ((pairs.count (x, y) : K) - expected pairs x y) ^ 2 / expected pairs x y

/-- The measures of some pairs. Going through all ordered pairs of categories, the statistic of
symmetry meets each unordered one twice. -/
def measures (pairs : List (β × β)) : Measures K where
  paired := pairs.length
  agreeing := pairs.countP fun pair => pair.1 = pair.2
  categories := (occurring pairs).card
  fewer := min (firsts pairs).card (seconds pairs).card
  symmetry := (∑ x ∈ occurring pairs, ∑ y ∈ occurring pairs, imbalance pairs x y) / (2 : ℕ)
  independence := ∑ x ∈ firsts pairs, ∑ y ∈ seconds pairs, dependence pairs x y

section Reordering

variable {pairs other : List (β × β)}

/-- Reordered pairs have the same categories on the first side. -/
theorem firsts_perm (h : other.Perm pairs) : firsts other = firsts pairs :=
  List.toFinset_eq_of_perm _ _ (h.map _)

/-- Reordered pairs have the same categories on the second side. -/
theorem seconds_perm (h : other.Perm pairs) : seconds other = seconds pairs :=
  List.toFinset_eq_of_perm _ _ (h.map _)

/-- The measures do not depend on the order of the pairs. -/
theorem measures_perm (h : other.Perm pairs) : (measures other : Measures K) = measures pairs := by
  have hdependence : ∀ x y, (dependence other x y : K) = dependence pairs x y := by
    intro x y
    rw [dependence, dependence, expected, expected, h.count_eq, (h.map _).count_eq,
      (h.map _).count_eq, h.length_eq]
  simp only [measures, occurring, imbalance, hdependence, firsts_perm h, seconds_perm h,
    h.count_eq, h.length_eq, h.countP_eq]

end Reordering

section Exchange

variable (pairs : List (β × β))

omit [DecidableEq β] in
/-- The first categories of exchanged pairs are the second ones. -/
theorem map_fst_swap : (pairs.map Prod.swap).map (·.1) = pairs.map (·.2) := by
  simp [Function.comp_def]

omit [DecidableEq β] in
/-- The second categories of exchanged pairs are the first ones. -/
theorem map_snd_swap : (pairs.map Prod.swap).map (·.2) = pairs.map (·.1) := by
  simp [Function.comp_def]

/-- Exchanging the sides exchanges the categories of the sides. -/
theorem firsts_map_swap : firsts (pairs.map Prod.swap) = seconds pairs := by
  rw [firsts, map_fst_swap, seconds]

/-- Exchanging the sides exchanges the categories of the sides. -/
theorem seconds_map_swap : seconds (pairs.map Prod.swap) = firsts pairs := by
  rw [seconds, map_snd_swap, firsts]

/-- Exchanging the sides exchanges the categories that meet. -/
theorem count_map_swap (x y : β) : (pairs.map Prod.swap).count (x, y) = pairs.count (y, x) :=
  List.count_map_of_injective pairs Prod.swap Prod.swap_injective (y, x)

/-- What two categories contribute to the statistic of independence is the same from either
side. -/
theorem dependence_map_swap (x y : β) :
    (dependence (pairs.map Prod.swap) x y : K) = dependence pairs y x := by
  have hexpected : (expected (pairs.map Prod.swap) x y : K) = expected pairs y x := by
    rw [expected, expected, map_fst_swap, map_snd_swap, List.length_map, mul_comm]
  rw [dependence, dependence, hexpected, count_map_swap]

/-- The measures are the same from either side. -/
theorem measures_map_swap : (measures (pairs.map Prod.swap) : Measures K) = measures pairs := by
  have hoccurring : occurring (pairs.map Prod.swap) = occurring pairs := by
    rw [occurring, occurring, firsts_map_swap, seconds_map_swap, Finset.union_comm]
  have himbalance : ∀ x y, (imbalance (pairs.map Prod.swap) x y : K) = imbalance pairs x y := by
    intro x y
    rw [imbalance, imbalance, count_map_swap, count_map_swap, add_comm, sub_sq_comm]
  have hagreeing : (pairs.map Prod.swap).countP (fun pair => pair.1 = pair.2) =
      pairs.countP fun pair => pair.1 = pair.2 := by
    rw [List.countP_map]
    exact List.countP_congr fun pair _ => by simp [eq_comm]
  simp only [measures, firsts_map_swap, seconds_map_swap, hoccurring, himbalance,
    dependence_map_swap, hagreeing, List.length_map, Measures.mk.injEq, true_and]
  exact ⟨min_comm _ _, Finset.sum_comm⟩

end Exchange

section Renaming

variable {f : β → γ} {s : Set β}

omit [DecidableEq β] in
/-- A double sum over renamed categories is the one over the categories. -/
theorem sum_sum_image (hf : Set.InjOn f s) {rows columns : Finset β} (hrows : ∀ x ∈ rows, x ∈ s)
    (hcolumns : ∀ y ∈ columns, y ∈ s) {g : γ → γ → K} {h : β → β → K}
    (hterm : ∀ x ∈ s, ∀ y ∈ s, g (f x) (f y) = h x y) :
    ∑ x ∈ rows.image f, ∑ y ∈ columns.image f, g x y = ∑ x ∈ rows, ∑ y ∈ columns, h x y := by
  rw [Finset.sum_image (hf.mono hrows)]
  refine Finset.sum_congr rfl fun x hx => ?_
  rw [Finset.sum_image (hf.mono hcolumns)]
  exact Finset.sum_congr rfl fun y hy => hterm x (hrows x hx) y (hcolumns y hy)

variable {pairs : List (β × β)} (hf : Set.InjOn f s)
  (hpairs : ∀ pair ∈ pairs, pair.1 ∈ s ∧ pair.2 ∈ s)

omit [DecidableEq β] [DecidableEq γ] in
/-- The categories on the first side of renamed pairs. -/
theorem map_fst_rename : (pairs.map (Prod.map f f)).map (·.1) = (pairs.map (·.1)).map f := by
  simp

omit [DecidableEq β] [DecidableEq γ] in
/-- The categories on the second side of renamed pairs. -/
theorem map_snd_rename : (pairs.map (Prod.map f f)).map (·.2) = (pairs.map (·.2)).map f := by
  simp

/-- The categories on the first side of renamed pairs are the names. -/
theorem firsts_rename : firsts (pairs.map (Prod.map f f)) = (firsts pairs).image f := by
  rw [firsts, map_fst_rename]
  exact Multiset.toFinset_map f (pairs.map (·.1) : List β)

/-- The categories on the second side of renamed pairs are the names. -/
theorem seconds_rename : seconds (pairs.map (Prod.map f f)) = (seconds pairs).image f := by
  rw [seconds, map_snd_rename]
  exact Multiset.toFinset_map f (pairs.map (·.2) : List β)

/-- The categories that occur in renamed pairs are the names. -/
theorem occurring_rename : occurring (pairs.map (Prod.map f f)) = (occurring pairs).image f := by
  rw [occurring, occurring, firsts_rename, seconds_rename, Finset.image_union]

include hpairs

omit [DecidableEq β] in
/-- The categories on the first side are among those that get names. -/
theorem mem_of_mem_fst {x : β} (hx : x ∈ pairs.map (·.1)) : x ∈ s := by
  obtain ⟨pair, hpair, rfl⟩ := List.mem_map.mp hx
  exact (hpairs pair hpair).1

omit [DecidableEq β] in
/-- The categories on the second side are among those that get names. -/
theorem mem_of_mem_snd {x : β} (hx : x ∈ pairs.map (·.2)) : x ∈ s := by
  obtain ⟨pair, hpair, rfl⟩ := List.mem_map.mp hx
  exact (hpairs pair hpair).2

include hf

/-- Two names meet as often as the categories that they stand for. -/
theorem count_rename {x y : β} (hx : x ∈ s) (hy : y ∈ s) :
    (pairs.map (Prod.map f f)).count (f x, f y) = pairs.count (x, y) :=
  count_map_of_injOn (hf.prodMap hf) (fun pair hpair => Set.mem_prod.mpr (hpairs pair hpair))
    (Set.mk_mem_prod hx hy)

/-- The dependence of two names is that of their categories. -/
theorem dependence_rename {x y : β} (hx : x ∈ s) (hy : y ∈ s) :
    (dependence (pairs.map (Prod.map f f)) (f x) (f y) : K) = dependence pairs x y := by
  have hexpected : (expected (pairs.map (Prod.map f f)) (f x) (f y) : K) = expected pairs x y := by
    rw [expected, expected, map_fst_rename, map_snd_rename, List.length_map,
      count_map_of_injOn hf (fun _ => mem_of_mem_fst hpairs) hx,
      count_map_of_injOn hf (fun _ => mem_of_mem_snd hpairs) hy]
  rw [dependence, dependence, hexpected, count_rename hf hpairs hx hy]

/-- As many names agree as categories. -/
theorem countP_eq_rename : (pairs.map (Prod.map f f)).countP (fun pair => pair.1 = pair.2) =
    pairs.countP fun pair => pair.1 = pair.2 := by
  rw [List.countP_map]
  refine List.countP_congr fun pair hpair => ?_
  simp [hf.eq_iff (hpairs pair hpair).1 (hpairs pair hpair).2]

/-- The measures do not depend on the names of the categories. -/
theorem measures_rename :
    (measures (pairs.map (Prod.map f f)) : Measures K) = measures pairs := by
  have hfirsts : ∀ x ∈ firsts pairs, x ∈ s := fun x hx =>
    mem_of_mem_fst hpairs (List.mem_toFinset.mp hx)
  have hseconds : ∀ x ∈ seconds pairs, x ∈ s := fun x hx =>
    mem_of_mem_snd hpairs (List.mem_toFinset.mp hx)
  have hboth : ∀ x ∈ occurring pairs, x ∈ s := fun x hx =>
    (Finset.mem_union.mp hx).elim (hfirsts x) (hseconds x)
  have hsymmetry : ∑ x ∈ (occurring pairs).image f, ∑ y ∈ (occurring pairs).image f,
      (imbalance (pairs.map (Prod.map f f)) x y : K) =
        ∑ x ∈ occurring pairs, ∑ y ∈ occurring pairs, imbalance pairs x y :=
    sum_sum_image hf hboth hboth fun x hx y hy => by
      rw [imbalance, imbalance, count_rename hf hpairs hx hy, count_rename hf hpairs hy hx]
  have hindependence : ∑ x ∈ (firsts pairs).image f, ∑ y ∈ (seconds pairs).image f,
      (dependence (pairs.map (Prod.map f f)) x y : K) =
        ∑ x ∈ firsts pairs, ∑ y ∈ seconds pairs, dependence pairs x y :=
    sum_sum_image hf hfirsts hseconds fun x hx y hy => dependence_rename hf hpairs hx hy
  simp only [measures, occurring_rename, firsts_rename, seconds_rename, hsymmetry, hindependence,
    countP_eq_rename hf hpairs, List.length_map, Finset.card_image_of_injOn (hf.mono hfirsts),
    Finset.card_image_of_injOn (hf.mono hseconds), Finset.card_image_of_injOn (hf.mono hboth)]

end Renaming

end Scorebook.Nominal
