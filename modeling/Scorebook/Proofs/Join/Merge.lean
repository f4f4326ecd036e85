import Mathlib.Data.Nat.Basic
import Mathlib.Order.Basic
import Scorebook.Join

/-!
# Merging two lists of rows

A merge walks along two lists at once, drops the row with the smaller key, and pairs rows of the
same key. On lists in strictly ascending order it finds the inner join. The merge knows nothing
of streams, of polls or of rows that are held between two pulls.
-/

namespace Scorebook

/-- The keys of a list of rows grow strictly. -/
def AscendingRows (rows : List ScoredRow) : Prop := rows.Pairwise fun x y => x.key < y.key

/-- What a merge finds. -/
structure Merged where
  /-- The rows that both lists share. -/
  pairs : List PairedRow
  /-- Whether it was the left list that had no more rows. -/
  leftEnded : Bool

/-- Merges two lists of rows until one of them has no more. -/
def mergeRows : List ScoredRow → List ScoredRow → Merged
  | [], _ => ⟨[], true⟩
  | _ :: _, [] => ⟨[], false⟩
  | a :: left, b :: right =>
    match compare a.key b.key with
    | .eq =>
      let rest := mergeRows left right
      ⟨⟨a.key, a.raw, b.raw⟩ :: rest.pairs, rest.leftEnded⟩
    | .lt => mergeRows left (b :: right)
    | .gt => mergeRows (a :: left) right
termination_by left right => left.length + right.length

/-- A merge of ascending lists pairs exactly the rows of equal keys. -/
theorem mem_mergeRows_pairs {left right : List ScoredRow} (hleft : AscendingRows left)
    (hright : AscendingRows right) (pair : PairedRow) :
    pair ∈ (mergeRows left right).pairs ↔
      ⟨pair.key, pair.rawA⟩ ∈ left ∧ ⟨pair.key, pair.rawB⟩ ∈ right := by
  fun_induction mergeRows left right with
  | case1 right => simp
  | case2 a left => simp
  | case3 a left b right hkeys rest ih =>
    obtain ⟨ha, hleft'⟩ := List.pairwise_cons.mp hleft
    obtain ⟨hb, hright'⟩ := List.pairwise_cons.mp hright
    have heq : a.key = b.key := Nat.compare_eq_eq.mp hkeys
    simp only [List.mem_cons, rest, ih hleft' hright']
    constructor
    · rintro (rfl | ⟨hA, hB⟩)
      · exact ⟨Or.inl rfl, Or.inl (by rw [heq])⟩
      · exact ⟨Or.inr hA, Or.inr hB⟩
    · rintro ⟨rfl | hA, hB⟩
      · rcases hB with hB | hB
        · left
          cases pair
          simp [← hB]
        · have hlt : b.key < pair.key := hb _ hB
          simp only at heq
          omega
      · rcases hB with rfl | hB
        · have hlt : a.key < pair.key := ha _ hA
          simp only at heq
          omega
        · exact Or.inr ⟨hA, hB⟩
  | case4 a left b right hkeys ih =>
    obtain ⟨ha, hleft'⟩ := List.pairwise_cons.mp hleft
    have hlt : a.key < b.key := Nat.compare_eq_lt.mp hkeys
    rw [ih hleft' hright, List.mem_cons (a := (⟨pair.key, pair.rawA⟩ : ScoredRow))]
    refine and_congr_left fun hB => (or_iff_right ?_).symm
    rintro rfl
    rcases List.mem_cons.mp hB with rfl | hB
    · simp at hlt
    · have hgt : b.key < pair.key := (List.pairwise_cons.mp hright).1 _ hB
      simp only at hlt
      omega
  | case5 a left b right hkeys ih =>
    obtain ⟨hb, hright'⟩ := List.pairwise_cons.mp hright
    have hlt : b.key < a.key := Nat.compare_eq_gt.mp hkeys
    rw [ih hleft hright', List.mem_cons (a := (⟨pair.key, pair.rawB⟩ : ScoredRow))]
    refine and_congr_right fun hA => (or_iff_right ?_).symm
    rintro rfl
    rcases List.mem_cons.mp hA with rfl | hA
    · simp at hlt
    · have hgt : a.key < pair.key := (List.pairwise_cons.mp hleft).1 _ hA
      simp only at hlt
      omega

/-- The pairs of a merge of ascending lists have strictly ascending keys. -/
theorem pairwise_mergeRows_pairs {left right : List ScoredRow} (hleft : AscendingRows left)
    (hright : AscendingRows right) :
    (mergeRows left right).pairs.Pairwise fun x y => x.key < y.key := by
  fun_induction mergeRows left right with
  | case1 right => exact List.Pairwise.nil
  | case2 a left => exact List.Pairwise.nil
  | case3 a left b right hkeys rest ih =>
    obtain ⟨ha, hleft'⟩ := List.pairwise_cons.mp hleft
    obtain ⟨hb, hright'⟩ := List.pairwise_cons.mp hright
    refine List.pairwise_cons.mpr ⟨fun pair hpair => ?_, ih hleft' hright'⟩
    exact ha _ ((mem_mergeRows_pairs hleft' hright' pair).mp hpair).1
  | case4 a left b right hkeys ih => exact ih (List.pairwise_cons.mp hleft).2 hright
  | case5 a left b right hkeys ih => exact ih hleft (List.pairwise_cons.mp hright).2

/-- A merge of ascending lists runs out of left rows first exactly if no left row lies beyond all
right rows. -/
theorem leftEnded_mergeRows_iff {left right : List ScoredRow} (hleft : AscendingRows left)
    (hright : AscendingRows right) :
    (mergeRows left right).leftEnded = true ↔ ∀ a ∈ left, ∃ b ∈ right, a.key ≤ b.key := by
  fun_induction mergeRows left right with
  | case1 right => simp
  | case2 a left => exact iff_of_false Bool.false_ne_true fun h => by simpa using h a (by simp)
  | case3 a left b right hkeys rest ih =>
    obtain ⟨ha, hleft'⟩ := List.pairwise_cons.mp hleft
    obtain ⟨hb, hright'⟩ := List.pairwise_cons.mp hright
    have heq : a.key = b.key := Nat.compare_eq_eq.mp hkeys
    rw [ih hleft' hright']
    constructor
    · intro h x hx
      rcases List.mem_cons.mp hx with rfl | hx
      · exact ⟨b, by simp, heq.le⟩
      · obtain ⟨y, hy, hle⟩ := h x hx
        exact ⟨y, by simp [hy], hle⟩
    · intro h x hx
      obtain ⟨y, hy, hle⟩ := h x (by simp [hx])
      rcases List.mem_cons.mp hy with rfl | hy
      · have hlt := ha x hx
        omega
      · exact ⟨y, hy, hle⟩
  | case4 a left b right hkeys ih =>
    have hlt : a.key < b.key := Nat.compare_eq_lt.mp hkeys
    rw [ih (List.pairwise_cons.mp hleft).2 hright, List.forall_mem_cons]
    exact (and_iff_right ⟨b, by simp, hlt.le⟩).symm
  | case5 a left b right hkeys ih =>
    have hlt : b.key < a.key := Nat.compare_eq_gt.mp hkeys
    rw [ih hleft (List.pairwise_cons.mp hright).2]
    constructor
    · intro h x hx
      obtain ⟨y, hy, hle⟩ := h x hx
      exact ⟨y, by simp [hy], hle⟩
    · intro h x hx
      obtain ⟨y, hy, hle⟩ := h x hx
      rcases List.mem_cons.mp hy with rfl | hy
      · have hge : a.key ≤ x.key := by
          rcases List.mem_cons.mp hx with rfl | hx
          · exact le_rfl
          · exact ((List.pairwise_cons.mp hleft).1 x hx).le
        omega
      · exact ⟨y, hy, hle⟩

end Scorebook
