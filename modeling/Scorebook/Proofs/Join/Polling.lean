import Scorebook.Proofs.Join.Merge

/-!
# Polling a join

Behind its rows in order a side of a join ends or fails. A poll of such a join does one step of
the merge of the rows: it brings the next pair of the merge and leaves the rows behind that pair,
or there is no pair left and the side that the merge runs out of decides how the poll ends. The
merge is thereby what a whole run of polls brings.
-/

namespace Scorebook

/-- How a poll ends that finds a side with no more rows in order. -/
inductive StopsWith : List (Event ScoredRow) → Polled → Prop
  | ended : StopsWith [] .ended
  | fault (cause : SourceFault) (rest : List (Event ScoredRow)) :
    StopsWith (.fault cause :: rest) (.fault cause)

/-- A join whose sides hold rows in order, each with what comes behind them. -/
def Join.ofSides (left right : List ScoredRow) (tailL tailR : List (Event ScoredRow)) : Join :=
  ⟨left.map .row ++ tailL, right.map .row ++ tailR, false⟩

/-- A poll does the next step of a merge: it brings a pair and leaves the rows behind it, or it
finds no pair and ends as the exhausted side does. -/
def Poll.StepsMerge (poll : Poll) (left right : List ScoredRow)
    (tailL tailR : List (Event ScoredRow)) (stopL stopR : Polled) : Prop :=
  (∃ pair left' right',
    (mergeRows left right).pairs = pair :: (mergeRows left' right').pairs ∧
    (mergeRows left right).leftEnded = (mergeRows left' right').leftEnded ∧
    poll.polled = .pair pair ∧ poll.join = .ofSides left' right' tailL tailR) ∨
  ((mergeRows left right).pairs = [] ∧
    poll.polled = if (mergeRows left right).leftEnded then stopL else stopR)

namespace Join

variable {tailL tailR : List (Event ScoredRow)} {stopL stopR : Polled}

/-- Pulling on the left steps the merge. A row held on the right counts as the first row of the
right list, whether it was pulled before or is pulled now. -/
theorem meetLeft_stepsMerge (hL : StopsWith tailL stopL) (hR : StopsWith tailR stopR)
    (left right : List ScoredRow) :
    (meetLeft (left.map .row ++ tailL) false none (right.map .row ++ tailR)).StepsMerge
      left right tailL tailR stopL stopR ∧
    ∀ b rest, right = b :: rest →
      (meetLeft (left.map .row ++ tailL) false (some b) (rest.map .row ++ tailR)).StepsMerge
        left right tailL tailR stopL stopR := by
  -- The cases are those of the merge; the two parts only differ in what is held.
  fun_induction mergeRows left right with
  | case1 right => cases hL <;> simp [Poll.StepsMerge, mergeRows, meetLeft]
  | case2 a left => cases hR <;> simp [Poll.StepsMerge, mergeRows, meetLeft, meetRight]
  | case3 a left b right hkeys rest ih =>
    have hpair (poll : Poll) (hpolled : poll.polled = .pair ⟨a.key, a.raw, b.raw⟩)
        (hjoin : poll.join = .ofSides left right tailL tailR) :
        poll.StepsMerge (a :: left) (b :: right) tailL tailR stopL stopR := by
      refine Or.inl ⟨_, left, right, ?_, ?_, hpolled, hjoin⟩ <;> simp [mergeRows, hkeys]
    constructor
    · apply hpair <;> simp [meetLeft, meetRight, hkeys, ofSides]
    · rintro b' rest' hright
      obtain ⟨rfl, rfl⟩ := List.cons.inj hright
      apply hpair <;> simp [meetLeft, hkeys, ofSides]
  | case4 a left b right hkeys ih =>
    have hmerge : mergeRows (a :: left) (b :: right) = mergeRows left (b :: right) := by
      simp [mergeRows, hkeys]
    have hheld := ih.2 b right rfl
    unfold Poll.StepsMerge at hheld ⊢
    rw [hmerge]
    constructor
    · simpa [meetLeft, meetRight, hkeys] using hheld
    · rintro b' rest' hright
      obtain ⟨rfl, rfl⟩ := List.cons.inj hright
      simpa [meetLeft, hkeys] using hheld
  | case5 a left b right hkeys ih =>
    have hmerge : mergeRows (a :: left) (b :: right) = mergeRows (a :: left) right := by
      simp [mergeRows, hkeys]
    have hfresh := ih.1
    unfold Poll.StepsMerge at hfresh ⊢
    rw [hmerge]
    constructor
    · simpa [meetLeft, meetRight, hkeys] using hfresh
    · rintro b' rest' hright
      obtain ⟨rfl, rfl⟩ := List.cons.inj hright
      simpa [meetLeft, hkeys] using hfresh

/-- A poll of a join whose sides hold rows in order steps the merge of the rows. -/
theorem poll_stepsMerge (hL : StopsWith tailL stopL) (hR : StopsWith tailR stopR)
    (left right : List ScoredRow) :
    (ofSides left right tailL tailR).poll.StepsMerge left right tailL tailR stopL stopR :=
  (meetLeft_stepsMerge hL hR left right).1

/-- A run of polls brings the pairs of the merge one after another, and then ends as the side
does that the merge runs out of. -/
theorem polls_ofSides (hL : StopsWith tailL stopL) (hR : StopsWith tailR stopR)
    (left right : List ScoredRow) :
    polls ((mergeRows left right).pairs.length + 1) (ofSides left right tailL tailR) =
      (mergeRows left right).pairs.map .pair ++
        [if (mergeRows left right).leftEnded then stopL else stopR] := by
  generalize hpairs : (mergeRows left right).pairs = pairs
  induction pairs generalizing left right with
  | nil =>
    rcases poll_stepsMerge hL hR left right with ⟨pair, left', right', hstep, _⟩ | ⟨_, hpolled⟩
    · simp [hpairs] at hstep
    · simp [polls, hpolled]
  | cons pair rest ih =>
    rcases poll_stepsMerge hL hR left right with
      ⟨pair', left', right', hstep, hended, hpolled, hjoin⟩ | ⟨hnone, _⟩
    · rw [hpairs] at hstep
      obtain ⟨rfl, hrest⟩ := List.cons.inj hstep
      have hlater := ih left' right' hrest.symm
      rw [List.length_cons, polls, hpolled, hjoin, hlater, hended]
      simp
    · simp [hpairs] at hnone

end Join

end Scorebook
