import Mathlib.Data.List.Sort
import Scorebook.Proofs.Join.SharedRows

/-!
# The stream of a join

Draining a join of two streams in strictly ascending order gives the merge of their rows and
nothing else: no fault, no request of cancellation, and no row that only one side has. The merge
is determined by the rows of equal keys, so the rows that it skips leave no trace in the stream.
-/

namespace Scorebook

namespace Join

/-- Pulling rows alone on the right requests no cancellation, if pulling on the left does not. -/
theorem cancelled_meetRight_rows {a : ScoredRow} {left : List (Event ScoredRow)}
    {pullLeft : Cancelled → ScoredRow → List (Event ScoredRow) → Poll}
    (hpull : ∀ b (rest : List ScoredRow), (pullLeft false b (rest.map .row)).cancelled = false)
    (right : List ScoredRow) :
    (meetRight a left pullLeft false (right.map .row)).cancelled = false := by
  induction right with
  | nil => rfl
  | cons b rest ih =>
    rw [List.map_cons, meetRight]
    split
    · rfl
    · exact hpull b rest
    · exact ih

/-- Pulling rows alone requests no cancellation. -/
theorem cancelled_meetLeft_rows (left right : List ScoredRow) (held : Option ScoredRow) :
    (meetLeft (left.map .row) false held (right.map .row)).cancelled = false := by
  induction left generalizing held right with
  | nil => rfl
  | cons a left ih =>
    cases held with
    | none => exact cancelled_meetRight_rows (fun b rest => ih rest (some b)) right
    | some b =>
      rw [List.map_cons, meetLeft]
      split
      · rfl
      · exact ih right (some b)
      · exact cancelled_meetRight_rows (fun b rest => ih rest (some b)) right

/-- A join of sides that hold rows alone drains to the merge of the rows, given one poll for each
pair and one for the end. -/
theorem drain_ofSides {fuel : ℕ} (left right : List ScoredRow)
    (hfuel : (mergeRows left right).pairs.length < fuel) :
    drain fuel (ofSides left right [] []) = (mergeRows left right).pairs.map .row := by
  induction fuel generalizing left right with
  | zero => omega
  | succ fuel ih =>
    have hflag : (ofSides left right [] []).poll.cancelled = false := by
      simpa [poll, ofSides] using cancelled_meetLeft_rows left right none
    rcases poll_stepsMerge .ended .ended left right with
      ⟨pair, left', right', hstep, -, hpolled, hjoin⟩ | ⟨hnone, hpolled⟩
    · have hlater := ih left' right' (by simp only [hstep, List.length_cons] at hfuel; omega)
      simp [drain, hflag, hpolled, hjoin, hstep, hlater]
    · rw [ite_self] at hpolled
      simp [drain, hflag, hpolled, hnone]

/-- Rows in strictly ascending order pass the check of the order unchanged. -/
theorem inOrder_ascending {rows : List ScoredRow} (hrows : AscendingRows rows) :
    inOrder none (rows.map .row) = rows.map .row := by
  have hpart : ascendingPart none rows = rows := ascendingPart_eq_self hrows (by simp)
  obtain ⟨tail, stop, hpassed, hstop, ⟨-, rfl⟩ | ⟨hdisorder, -⟩⟩ := inOrder_rows none rows
  · cases hstop
    rw [hpassed, hpart, List.append_nil]
  · exact absurd hpart hdisorder

end Join

/-- A merge pairs each left row at most once. -/
theorem length_mergeRows_le (left right : List ScoredRow) :
    (mergeRows left right).pairs.length ≤ left.length := by
  fun_induction mergeRows left right with
  | case1 right => simp
  | case2 a left => simp
  | case3 a left b right hkeys rest ih => simpa [rest] using ih
  | case4 a left b right hkeys ih => exact ih.trans (Nat.le_succ _)
  | case5 a left b right hkeys ih => exact ih

/-- The stream of a join of ascending streams brings the merge of their rows. -/
theorem Join.events_ascending {left right : List ScoredRow} (hleft : AscendingRows left)
    (hright : AscendingRows right) :
    Join.events (left.map .row) (right.map .row) = (mergeRows left right).pairs.map .row := by
  have hsides : ofEvents (left.map .row) (right.map .row) = ofSides left right [] [] := by
    simp [ofEvents, ofSides, inOrder_ascending hleft, inOrder_ascending hright]
  rw [events, hsides, List.length_map]
  exact drain_ofSides left right (Nat.lt_succ_of_le (length_mergeRows_le left right))

/-- Merges of ascending lists that share the same rows are equal. -/
theorem mergeRows_pairs_eq {left right left' right' : List ScoredRow}
    (hleft : AscendingRows left) (hright : AscendingRows right)
    (hleft' : AscendingRows left') (hright' : AscendingRows right')
    (hshared : ∀ pair : PairedRow,
      (⟨pair.key, pair.rawA⟩ ∈ left ∧ ⟨pair.key, pair.rawB⟩ ∈ right) ↔
        (⟨pair.key, pair.rawA⟩ ∈ left' ∧ ⟨pair.key, pair.rawB⟩ ∈ right')) :
    (mergeRows left right).pairs = (mergeRows left' right').pairs := by
  have hpairs := pairwise_mergeRows_pairs hleft hright
  have hpairs' := pairwise_mergeRows_pairs hleft' hright'
  have hasymm : Std.Asymm fun x y : PairedRow => x.key < y.key := ⟨fun _ _ => Nat.lt_asymm⟩
  refine hpairs.eq_of_mem_iff hpairs' fun pair => ?_
  rw [mem_mergeRows_pairs hleft hright, mem_mergeRows_pairs hleft' hright']
  exact hshared pair

end Scorebook
