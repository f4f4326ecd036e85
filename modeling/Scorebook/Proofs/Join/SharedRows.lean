import Scorebook.Proofs.Join.Polling

/-!
# The rows a join brings

A join accepts the rows of a side as long as their keys grow, so it sees of each side the part
up to the first disorder. What it brings is the merge of the two parts. Disorder is a fault only
if the join gets there: behind the end of the other side it stays unnoticed, and a key that
occurs only behind it is lost.
-/

namespace Scorebook

/-- The rows up to the first whose key does not exceed the key before it. A key that was accepted
before the list counts as the first key before it. -/
def ascendingPart : Option ℕ → List ScoredRow → List ScoredRow
  | _, [] => []
  | none, row :: rest => row :: ascendingPart (some row.key) rest
  | some last, row :: rest =>
    if row.key ≤ last then [] else row :: ascendingPart (some row.key) rest

/-- The rows in order are the beginning of the list. -/
theorem ascendingPart_isPrefix (last : Option ℕ) (rows : List ScoredRow) :
    ascendingPart last rows <+: rows := by
  fun_induction ascendingPart last rows with
  | case1 last => exact List.prefix_rfl
  | case2 row rest ih => exact (List.prefix_cons_inj row).mpr ih
  | case3 last row rest hle => exact List.nil_prefix
  | case4 last row rest hle ih => exact (List.prefix_cons_inj row).mpr ih

/-- The rows in order have strictly ascending keys, all of them beyond the key before the list. -/
theorem ascendingPart_ascending (last : Option ℕ) (rows : List ScoredRow) :
    AscendingRows (ascendingPart last rows) ∧
      ∀ key ∈ last, ∀ row ∈ ascendingPart last rows, key < row.key := by
  fun_induction ascendingPart last rows with
  | case1 last => exact ⟨List.Pairwise.nil, by simp⟩
  | case2 row rest ih =>
    exact ⟨List.pairwise_cons.mpr ⟨ih.2 row.key rfl, ih.1⟩, by simp⟩
  | case3 last row rest hle => exact ⟨List.Pairwise.nil, by simp⟩
  | case4 last row rest hle ih =>
    refine ⟨List.pairwise_cons.mpr ⟨ih.2 row.key rfl, ih.1⟩, ?_⟩
    intro key hkey other hother
    obtain rfl : last = key := by simpa using hkey
    rcases List.mem_cons.mp hother with rfl | hother
    · omega
    · have hlt := ih.2 row.key rfl other hother
      omega

/-- Rows in strictly ascending order are in order throughout. -/
theorem ascendingPart_eq_self {last : Option ℕ} {rows : List ScoredRow}
    (hrows : AscendingRows rows) (hlast : ∀ key ∈ last, ∀ row ∈ rows, key < row.key) :
    ascendingPart last rows = rows := by
  fun_induction ascendingPart last rows with
  | case1 last => rfl
  | case2 row rest ih =>
    obtain ⟨hrow, hrest⟩ := List.pairwise_cons.mp hrows
    rw [ih hrest (by simpa using hrow)]
  | case3 last row rest hle =>
    have hlt := hlast last rfl row (by simp)
    omega
  | case4 last row rest hle ih =>
    obtain ⟨hrow, hrest⟩ := List.pairwise_cons.mp hrows
    rw [ih hrest (by simpa using hrow)]

/-- The check of the order passes the rows in order. Behind them the side ends if these are all
rows, and fails with a fault of disorder otherwise. -/
theorem inOrder_rows (last : Option ℕ) (rows : List ScoredRow) :
    ∃ tail stop, inOrder last (rows.map .row) = (ascendingPart last rows).map .row ++ tail ∧
      StopsWith tail stop ∧
      ((ascendingPart last rows = rows ∧ stop = .ended) ∨
        (ascendingPart last rows ≠ rows ∧
          ∃ previous next, stop = .fault (.outOfOrder previous next))) := by
  fun_induction ascendingPart last rows with
  | case1 last => exact ⟨[], .ended, by simp [inOrder], .ended, Or.inl ⟨rfl, rfl⟩⟩
  | case2 row rest ih =>
    obtain ⟨tail, stop, hpassed, hstop, hcause⟩ := ih
    exact ⟨tail, stop, by simp [inOrder, hpassed], hstop, by simpa using hcause⟩
  | case3 last row rest hle =>
    exact ⟨_, _, by simp [inOrder, hle]; rfl, .fault _ _, Or.inr ⟨by simp, last, row.key, rfl⟩⟩
  | case4 last row rest hle ih =>
    obtain ⟨tail, stop, hpassed, hstop, hcause⟩ := ih
    exact ⟨tail, stop, by simp [inOrder, hle, hpassed], hstop, by simpa using hcause⟩

/-- The keys of some pairs are exactly the keys that occur in both lists. -/
def HasSharedKeys (pairs : List PairedRow) (left right : List ScoredRow) : Prop :=
  ∀ key, key ∈ pairs.map (·.key) ↔ key ∈ left.map (·.key) ∧ key ∈ right.map (·.key)

/-- The pairs of a merge of ascending lists have the keys that occur in both. -/
theorem mergeRows_hasSharedKeys {left right : List ScoredRow} (hleft : AscendingRows left)
    (hright : AscendingRows right) : HasSharedKeys (mergeRows left right).pairs left right := by
  intro key
  simp only [List.mem_map]
  constructor
  · rintro ⟨pair, hpair, rfl⟩
    obtain ⟨hA, hB⟩ := (mem_mergeRows_pairs hleft hright pair).mp hpair
    exact ⟨⟨_, hA, rfl⟩, ⟨_, hB, rfl⟩⟩
  · rintro ⟨⟨a, hA, rfl⟩, ⟨b, hB, hkey⟩⟩
    refine ⟨⟨a.key, a.raw, b.raw⟩, (mem_mergeRows_pairs hleft hright _).mpr ⟨hA, ?_⟩, rfl⟩
    rwa [← hkey]

/-- The side that a join runs out of first is in order throughout, so the join meets no disorder. -/
def EndsQuietly (left right : List ScoredRow) : Prop :=
  let partL := ascendingPart none left
  let partR := ascendingPart none right
  let leftFirst := ∀ a ∈ partL, ∃ b ∈ partR, a.key ≤ b.key
  (leftFirst → partL = left) ∧ (¬leftFirst → partR = right)

/-- Every key that occurs in both lists occurs before the first disorder of either. -/
def SharedInOrder (left right : List ScoredRow) : Prop :=
  ∀ key, key ∈ left.map (·.key) ∧ key ∈ right.map (·.key) →
    key ∈ (ascendingPart none left).map (·.key) ∧ key ∈ (ascendingPart none right).map (·.key)

/-- A key of the part in order is a key of the whole list. -/
theorem mem_keys_of_ascendingPart {last : Option ℕ} {rows : List ScoredRow} {key : ℕ}
    (hkey : key ∈ (ascendingPart last rows).map (·.key)) : key ∈ rows.map (·.key) :=
  ((ascendingPart_isPrefix last rows).map _).subset hkey

namespace Join

/-- Whatever the order of the rows, the polls bring the merge of the parts in order. The run then
ends, or it fails because the join got to a disorder. -/
theorem polls_rows (left right : List ScoredRow) :
    ∃ stop,
      polls ((mergeRows (ascendingPart none left) (ascendingPart none right)).pairs.length + 1)
          (ofEvents (left.map .row) (right.map .row)) =
        (mergeRows (ascendingPart none left) (ascendingPart none right)).pairs.map .pair ++ [stop] ∧
      ((stop = .ended ∧ EndsQuietly left right) ∨
        ((∃ previous next, stop = .fault (.outOfOrder previous next)) ∧
          ¬EndsQuietly left right)) := by
  obtain ⟨tailL, stopL, hL, hstopL, hcauseL⟩ := inOrder_rows none left
  obtain ⟨tailR, stopR, hR, hstopR, hcauseR⟩ := inOrder_rows none right
  have hsides : ofEvents (left.map .row) (right.map .row) =
      ofSides (ascendingPart none left) (ascendingPart none right) tailL tailR := by
    simp only [ofEvents, ofSides, hL, hR]
  have hended := leftEnded_mergeRows_iff (ascendingPart_ascending none left).1
    (ascendingPart_ascending none right).1
  refine ⟨_, by rw [hsides]; exact polls_ofSides hstopL hstopR _ _, ?_⟩
  unfold EndsQuietly
  by_cases hleftFirst : ∀ a ∈ ascendingPart none left, ∃ b ∈ ascendingPart none right, a.key ≤ b.key
  · rw [if_pos (hended.mpr hleftFirst)]
    rcases hcauseL with ⟨hpart, hstop⟩ | ⟨hpart, hstop⟩
    · exact Or.inl ⟨hstop, fun _ => hpart, fun h => absurd hleftFirst h⟩
    · exact Or.inr ⟨hstop, fun h => hpart (h.1 hleftFirst)⟩
  · rw [if_neg (fun h => hleftFirst (hended.mp h))]
    rcases hcauseR with ⟨hpart, hstop⟩ | ⟨hpart, hstop⟩
    · exact Or.inl ⟨hstop, fun h => absurd h hleftFirst, fun _ => hpart⟩
    · exact Or.inr ⟨hstop, fun h => hpart (h.2 hleftFirst)⟩

/-- A join of ascending streams is the inner join: its polls bring one pair for each key that
both streams have, in ascending order and with the values of the two streams, and then end. -/
theorem polls_ascending {left right : List ScoredRow} (hleft : AscendingRows left)
    (hright : AscendingRows right) :
    ∃ pairs,
      polls (pairs.length + 1) (ofEvents (left.map .row) (right.map .row)) =
        pairs.map .pair ++ [.ended] ∧
      pairs.Pairwise (fun x y => x.key < y.key) ∧
      HasSharedKeys pairs left right ∧
      ∀ pair, pair ∈ pairs ↔ ⟨pair.key, pair.rawA⟩ ∈ left ∧ ⟨pair.key, pair.rawB⟩ ∈ right := by
  have hpartL : ascendingPart none left = left := ascendingPart_eq_self hleft (by simp)
  have hpartR : ascendingPart none right = right := ascendingPart_eq_self hright (by simp)
  have hquiet : EndsQuietly left right := ⟨fun _ => hpartL, fun _ => hpartR⟩
  obtain ⟨stop, hpolls, ⟨rfl, -⟩ | ⟨-, hnoisy⟩⟩ := polls_rows left right
  · rw [hpartL, hpartR] at hpolls
    exact ⟨_, hpolls, pairwise_mergeRows_pairs hleft hright, mergeRows_hasSharedKeys hleft hright,
      mem_mergeRows_pairs hleft hright⟩
  · exact absurd hquiet hnoisy

/-- Gaps on both sides and a longer right side: the shared rows are joined. -/
theorem polls_ascending_gaps :
    AscendingRows [⟨1, .label "a"⟩, ⟨2, .label "b"⟩, ⟨7, .label "c"⟩] ∧
    AscendingRows [⟨2, .label "x"⟩, ⟨3, .label "y"⟩, ⟨7, .label "z"⟩, ⟨9, .label "w"⟩] ∧
    ∃ pairs : List PairedRow,
      polls (pairs.length + 1)
          (ofEvents ([⟨1, .label "a"⟩, ⟨2, .label "b"⟩, ⟨7, .label "c"⟩].map .row)
            ([⟨2, .label "x"⟩, ⟨3, .label "y"⟩, ⟨7, .label "z"⟩, ⟨9, .label "w"⟩].map .row)) =
        pairs.map .pair ++ [.ended] ∧
      ⟨7, .label "c", .label "z"⟩ ∈ pairs := by
  have hleft : AscendingRows [⟨1, .label "a"⟩, ⟨2, .label "b"⟩, ⟨7, .label "c"⟩] := by
    simp [AscendingRows]
  have hright : AscendingRows
      [⟨2, .label "x"⟩, ⟨3, .label "y"⟩, ⟨7, .label "z"⟩, ⟨9, .label "w"⟩] := by
    simp [AscendingRows]
  obtain ⟨pairs, hpolls, _, _, hmem⟩ := polls_ascending hleft hright
  exact ⟨hleft, hright, pairs, hpolls, (hmem _).mpr (by simp)⟩

/-- What a join of rows in any order brings: the keys are the shared ones exactly if every shared
key occurs before the first disorder of either side, and a disorder is reported exactly if the
side that the join runs out of first is not in order. -/
theorem polls_any_order (left right : List ScoredRow) :
    ∃ pairs stop,
      polls (pairs.length + 1) (ofEvents (left.map .row) (right.map .row)) =
        pairs.map .pair ++ [stop] ∧
      ((stop = .ended ∧ EndsQuietly left right) ∨
        ((∃ previous next, stop = .fault (.outOfOrder previous next)) ∧
          ¬EndsQuietly left right)) ∧
      (HasSharedKeys pairs left right ↔ SharedInOrder left right) := by
  obtain ⟨stop, hpolls, hstop⟩ := polls_rows left right
  refine ⟨_, stop, hpolls, hstop, ?_⟩
  have hkeys := mergeRows_hasSharedKeys (ascendingPart_ascending none left).1
    (ascendingPart_ascending none right).1
  constructor
  · intro h key hshared
    exact (hkeys key).mp ((h key).mpr hshared)
  · intro h key
    rw [hkeys key]
    exact ⟨fun hparts => ⟨mem_keys_of_ascendingPart hparts.1, mem_keys_of_ascendingPart hparts.2⟩,
      h key⟩

/-- A join that ends without a fault can lose a shared key: the left side ends while a row beyond it
is held on the right, and the disorder behind that row is never met. -/
theorem polls_loses_shared_key :
    ¬∀ (left right : List ScoredRow) (pairs : List PairedRow),
      polls (pairs.length + 1) (ofEvents (left.map .row) (right.map .row)) =
        pairs.map .pair ++ [.ended] → HasSharedKeys pairs left right := by
  intro h
  have hshared := h [⟨3, .label "a"⟩] [⟨5, .label "b"⟩, ⟨3, .label "c"⟩] [] rfl 3
  simp at hshared

end Join

end Scorebook
