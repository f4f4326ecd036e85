import Scorebook.Proofs.Join.Pulls

/-!
# Runs of polls

A join may be polled any number of times, whatever its streams bring and also after its end. The
pairs of a run are made of rows that the two sides accepted one after another, so their keys ascend
strictly. A failure has a reason on one of the sides and silences the join; the end says that a side
has no more items, and then no pair can follow.
-/

namespace Scorebook

namespace Polled

/-- The pair that a poll brought. -/
def pair? : Polled → Option PairedRow
  | pair value => some value
  | fault _ | crash | ended => none

/-- Whether a poll reported a fault or broke down. -/
def isFailure : Polled → Bool
  | fault _ | crash => true
  | pair _ | ended => false

end Polled

/-- An event that stops a poll makes it fail. -/
theorem Event.isFailure_of_stop? {event : Event ScoredRow} {stop : Polled}
    (hstop : event.stop? = some stop) : stop.isFailure = true := by
  cases event with
  | row value => cases hstop
  | cancel => cases hstop
  | fault cause => cases hstop; rfl
  | crash => cases hstop; rfl

namespace Poll.Brings

variable {left right : List (Event ScoredRow)} {poll : Poll}

/-- What is left of the sides behind a poll is an end of either. -/
theorem suffix (h : poll.Brings left right) :
    poll.join.left <:+ left ∧ poll.join.right <:+ right := by
  cases h with
  | pair hleft hright =>
    exact ⟨(List.suffix_cons _ _).trans hleft, (List.suffix_cons _ _).trans hright⟩
  | stopLeft _ hleft hright => exact ⟨(List.suffix_cons _ _).trans hleft, hright⟩
  | stopRight _ hleft hright => exact ⟨hleft, (List.suffix_cons _ _).trans hright⟩
  | endLeft hright => exact ⟨List.nil_suffix, hright⟩
  | endRight hleft => exact ⟨hleft, List.nil_suffix⟩

/-- The join has failed behind a poll exactly if the poll reports it. -/
theorem failed_eq (h : poll.Brings left right) : poll.join.failed = poll.polled.isFailure := by
  cases h with
  | pair => rfl
  | stopLeft hstop => exact (Event.isFailure_of_stop? hstop).symm
  | stopRight hstop => exact (Event.isFailure_of_stop? hstop).symm
  | endLeft => rfl
  | endRight => rfl

/-- A poll pairs rows that were still to be pulled. -/
theorem of_pair {value : PairedRow} (h : poll.Brings left right)
    (hpair : poll.polled = .pair value) :
    .row value.sideA :: poll.join.left <:+ left ∧
      .row value.sideB :: poll.join.right <:+ right := by
  cases h with
  | pair hleft hright =>
    cases hpair
    exact ⟨hleft, hright⟩
  | stopLeft hstop =>
    cases hpair
    cases Event.isFailure_of_stop? hstop
  | stopRight hstop =>
    cases hpair
    cases Event.isFailure_of_stop? hstop
  | endLeft => cases hpair
  | endRight => cases hpair

/-- A poll fails at the last item that it pulled from one of the sides. -/
theorem exists_stop (h : poll.Brings left right) (hfailure : poll.polled.isFailure = true) :
    ∃ event : Event ScoredRow, event.stop? = some poll.polled ∧
      (event :: poll.join.left <:+ left ∨ event :: poll.join.right <:+ right) := by
  cases h with
  | pair => cases hfailure
  | stopLeft hstop hleft => exact ⟨_, hstop, Or.inl hleft⟩
  | stopRight hstop _ hright => exact ⟨_, hstop, Or.inr hright⟩
  | endLeft => cases hfailure
  | endRight => cases hfailure

/-- A poll brings the end only if a side has no more items. -/
theorem eq_nil_of_ended (h : poll.Brings left right) (hended : poll.polled = .ended) :
    poll.join.left = [] ∨ poll.join.right = [] := by
  cases h with
  | pair => cases hended
  | stopLeft hstop =>
    cases hended
    cases Event.isFailure_of_stop? hstop
  | stopRight hstop =>
    cases hended
    cases Event.isFailure_of_stop? hstop
  | endLeft => exact Or.inl rfl
  | endRight => exact Or.inr rfl

end Poll.Brings

namespace Join

/-- The join after a number of polls. -/
def after (join : Join) : ℕ → Join
  | 0 => join
  | count + 1 => join.poll.join.after count

/-- A join that can bring no pair any more: it has failed, or a side has no more items. -/
def Exhausted (join : Join) : Prop := join.failed = true ∨ join.left = [] ∨ join.right = []

section Step

variable {join : Join}

/-- A poll of a join has failed before and changes nothing, or it brings what a poll can bring. -/
theorem poll_cases (join : Join) :
    (join.failed = true ∧ join.poll = ⟨.ended, false, join⟩) ∨
      (join.failed = false ∧ join.poll.Brings join.left join.right) := by
  cases hfailed : join.failed with
  | true => exact Or.inl ⟨rfl, poll_of_failed hfailed⟩
  | false => exact Or.inr ⟨rfl, poll_brings hfailed⟩

/-- What is left of the sides behind a poll is an end of either. -/
theorem poll_suffix (join : Join) :
    join.poll.join.left <:+ join.left ∧ join.poll.join.right <:+ join.right := by
  rcases poll_cases join with ⟨-, hpoll⟩ | ⟨-, hbrings⟩
  · rw [hpoll]
    exact ⟨List.suffix_rfl, List.suffix_rfl⟩
  · exact hbrings.suffix

/-- A join fails at a poll that reports it, and stays as it is from then on. -/
theorem failed_poll (join : Join) :
    join.poll.join.failed = (join.failed || join.poll.polled.isFailure) := by
  rcases poll_cases join with ⟨hfailed, hpoll⟩ | ⟨hrunning, hbrings⟩
  · rw [hpoll, hfailed, Bool.true_or]
  · rw [hrunning, Bool.false_or, hbrings.failed_eq]

/-- A join that brings no pair any more brings none at the next poll, and stays such a join. -/
theorem Exhausted.poll (h : join.Exhausted) :
    join.poll.polled.pair? = none ∧ join.poll.join.Exhausted := by
  rcases poll_cases join with ⟨-, hpoll⟩ | ⟨hrunning, hbrings⟩
  · rw [hpoll]
    exact ⟨rfl, h⟩
  · have hsides : join.left = [] ∨ join.right = [] := by
      rcases h with hfailed | hsides
      · rw [hrunning] at hfailed
        cases hfailed
      · exact hsides
    constructor
    · cases hpolled : join.poll.polled with
      | pair value =>
        obtain ⟨hleft, hright⟩ := hbrings.of_pair hpolled
        rcases hsides with hnil | hnil <;> simp [hnil] at hleft hright
      | fault => rfl
      | crash => rfl
      | ended => rfl
    · obtain ⟨hleft, hright⟩ := hbrings.suffix
      rcases hsides with hnil | hnil
      · exact Or.inr (Or.inl (by simpa [hnil] using hleft))
      · exact Or.inr (Or.inr (by simpa [hnil] using hright))

/-- A join that was polled to its end brings no pair any more. -/
theorem exhausted_of_ended (hended : join.poll.polled = .ended) : join.poll.join.Exhausted := by
  rcases poll_cases join with ⟨hfailed, hpoll⟩ | ⟨-, hbrings⟩
  · rw [hpoll]
    exact Or.inl hfailed
  · exact Or.inr (hbrings.eq_nil_of_ended hended)

end Step

section Run

variable {join : Join} {count : ℕ}

/-- Every poll gives an answer. -/
@[simp] theorem length_polls (count : ℕ) (join : Join) : (polls count join).length = count := by
  induction count generalizing join with
  | zero => rfl
  | succ count ih => simp [polls, ih]

/-- One more poll is a poll of the join after the others. -/
theorem after_succ (join : Join) (count : ℕ) :
    join.after (count + 1) = (join.after count).poll.join := by
  induction count generalizing join with
  | zero => rfl
  | succ count ih => exact ih join.poll.join

/-- An answer is that of the join after the polls before it, and the later answers are those of the
join that it leaves. -/
theorem polls_eq_append_cons {before later : List Polled} {answer : Polled}
    (hsplit : polls count join = before ++ answer :: later) :
    before = polls before.length join ∧
      answer = (join.after before.length).poll.polled ∧
      later = polls later.length (join.after (before.length + 1)) := by
  induction before generalizing count join with
  | nil =>
    cases count with
    | zero => cases hsplit
    | succ count =>
      obtain ⟨rfl, rfl⟩ := List.cons.inj hsplit
      exact ⟨rfl, rfl, by rw [length_polls]; rfl⟩
  | cons first before ih =>
    cases count with
    | zero => cases hsplit
    | succ count =>
      obtain ⟨rfl, hrest⟩ := List.cons.inj hsplit
      obtain ⟨hbefore, hanswer, hlater⟩ := ih hrest
      exact ⟨congrArg _ hbefore, hanswer, hlater⟩

/-- What is left of the sides behind a run is an end of either. -/
theorem after_suffix (join : Join) (count : ℕ) :
    (join.after count).left <:+ join.left ∧ (join.after count).right <:+ join.right := by
  induction count generalizing join with
  | zero => exact ⟨List.suffix_rfl, List.suffix_rfl⟩
  | succ count ih =>
    obtain ⟨hleft, hright⟩ := ih join.poll.join
    obtain ⟨hleft', hright'⟩ := poll_suffix join
    exact ⟨hleft.trans hleft', hright.trans hright'⟩

/-- A join that has failed brings nothing. -/
theorem polls_of_failed (hfailed : join.failed = true) :
    polls count join = List.replicate count .ended := by
  induction count with
  | zero => rfl
  | succ count ih => rw [polls, poll_of_failed hfailed, ih, List.replicate_succ]

/-- A run in which the join fails reports it. -/
theorem exists_isFailure_of_failed (hrunning : join.failed = false)
    (hfailed : (join.after count).failed = true) :
    ∃ answer ∈ polls count join, answer.isFailure = true := by
  induction count generalizing join with
  | zero =>
    rw [after, hrunning] at hfailed
    cases hfailed
  | succ count ih =>
    by_cases hfailure : join.poll.polled.isFailure = true
    · exact ⟨_, List.mem_cons_self, hfailure⟩
    · have hnext : join.poll.join.failed = false := by
        rw [failed_poll, hrunning, eq_false_of_ne_true hfailure, Bool.or_false]
      obtain ⟨answer, hanswer, hfails⟩ := ih hnext hfailed
      exact ⟨answer, List.mem_cons_of_mem _ hanswer, hfails⟩

/-- A run fails at most once. -/
theorem countP_isFailure_polls (join : Join) (count : ℕ) :
    (polls count join).countP Polled.isFailure ≤ 1 := by
  induction count generalizing join with
  | zero => exact Nat.zero_le 1
  | succ count ih =>
    rw [polls, List.countP_cons]
    by_cases hfailure : join.poll.polled.isFailure = true
    · have hfailed : join.poll.join.failed = true := by rw [failed_poll, hfailure, Bool.or_true]
      have hlater : (polls count join.poll.join).countP Polled.isFailure = 0 := by
        rw [polls_of_failed hfailed, List.countP_replicate]
        rfl
      rw [hlater, if_pos hfailure]
    · rw [if_neg hfailure]
      exact ih join.poll.join

/-- A join that can bring no pair any more brings none. -/
theorem Exhausted.polls (h : join.Exhausted) (count : ℕ) :
    (Join.polls count join).filterMap Polled.pair? = [] := by
  induction count generalizing join with
  | zero => rfl
  | succ count ih =>
    obtain ⟨hnone, hnext⟩ := h.poll
    rw [Join.polls, List.filterMap_cons_none hnone, ih hnext]

/-- The rows that the pairs of a run take from one side are rows of it, in their order. -/
theorem map_pairs_polls_sublist (join : Join) (count : ℕ) :
    (((polls count join).filterMap Polled.pair?).map PairedRow.sideA).Sublist
        (join.left.filterMap Event.row?) ∧
      (((polls count join).filterMap Polled.pair?).map PairedRow.sideB).Sublist
        (join.right.filterMap Event.row?) := by
  induction count generalizing join with
  | zero => exact ⟨List.nil_sublist _, List.nil_sublist _⟩
  | succ count ih =>
    obtain ⟨hpairsA, hpairsB⟩ := ih join.poll.join
    obtain ⟨hleft, hright⟩ := poll_suffix join
    rw [polls]
    cases hpair : join.poll.polled.pair? with
    | none =>
      rw [List.filterMap_cons_none hpair]
      exact ⟨hpairsA.trans (hleft.sublist.filterMap _), hpairsB.trans (hright.sublist.filterMap _)⟩
    | some value =>
      have hpolled : join.poll.polled = .pair value := by
        cases hpolled : join.poll.polled <;> simp_all [Polled.pair?]
      rcases poll_cases join with ⟨-, hpoll⟩ | ⟨-, hbrings⟩
      · rw [hpoll] at hpolled
        cases hpolled
      · obtain ⟨hvalueA, hvalueB⟩ := hbrings.of_pair hpolled
        rw [List.filterMap_cons_some hpair]
        exact ⟨(hpairsA.cons_cons value.sideA).trans (hvalueA.sublist.filterMap Event.row?),
          (hpairsB.cons_cons value.sideB).trans (hvalueB.sublist.filterMap Event.row?)⟩

end Run

section Streams

variable {left right : List (Event ScoredRow)} {count : ℕ} {before later : List Polled}

/-- Behind a run every side has pulled some of its events. -/
theorem after_ofEvents_suffix (left right : List (Event ScoredRow)) (count : ℕ) :
    ((ofEvents left right).after count).left <:+ inOrder none left ∧
      ((ofEvents left right).after count).right <:+ inOrder none right :=
  after_suffix (ofEvents left right) count

/-- The pairs of a run ascend strictly, and are made of rows of the streams. -/
theorem pairs_polls_ofEvents (left right : List (Event ScoredRow)) (count : ℕ) :
    ((polls count (ofEvents left right)).filterMap Polled.pair?).Pairwise
        (fun x y => x.key < y.key) ∧
      ∀ value, .pair value ∈ polls count (ofEvents left right) →
        .row value.sideA ∈ left ∧ .row value.sideB ∈ right := by
  obtain ⟨hpairsA, hpairsB⟩ := map_pairs_polls_sublist (ofEvents left right) count
  constructor
  · have hrows := (accepted_ascending none left).1.sublist hpairsA
    exact List.Pairwise.of_map PairedRow.sideA (fun _ _ hkeys => hkeys) hrows
  · intro value hvalue
    have hpair : value ∈ (polls count (ofEvents left right)).filterMap Polled.pair? :=
      List.mem_filterMap.mpr ⟨_, hvalue, rfl⟩
    exact ⟨row_mem_of_mem_accepted (hpairsA.subset (List.mem_map_of_mem hpair)),
      row_mem_of_mem_accepted (hpairsB.subset (List.mem_map_of_mem hpair))⟩

/-- Behind a failure a join only ends. -/
theorem eq_ended_of_mem_later {join : Join} {stop : Polled}
    (hsplit : polls count join = before ++ stop :: later) (hstop : stop.isFailure = true) :
    ∀ answer ∈ later, answer = .ended := by
  obtain ⟨-, rfl, hlater⟩ := polls_eq_append_cons hsplit
  have hfailed : (join.after (before.length + 1)).failed = true := by
    rw [after_succ, failed_poll, hstop, Bool.or_true]
  rw [hlater, polls_of_failed hfailed]
  exact fun answer hanswer => List.eq_of_mem_replicate hanswer

/-- A failure in a run has its reason in the item that one of the sides has pulled last. -/
theorem exists_failsAt_of_polls {stop : Polled}
    (hsplit : polls count (ofEvents left right) = before ++ stop :: later)
    (hstop : stop.isFailure = true) :
    ∃ pulled item, FailsAt pulled item stop ∧
      (HasPulled left (pulled ++ [item])
          ((ofEvents left right).after (before.length + 1)).left ∨
        HasPulled right (pulled ++ [item])
          ((ofEvents left right).after (before.length + 1)).right) := by
  obtain ⟨-, rfl, -⟩ := polls_eq_append_cons hsplit
  obtain ⟨hleft, hright⟩ := after_ofEvents_suffix left right before.length
  rw [after_succ]
  rcases poll_cases ((ofEvents left right).after before.length) with ⟨-, hpoll⟩ | ⟨-, hbrings⟩
  · rw [hpoll] at hstop
    cases hstop
  · obtain ⟨event, hevent, hrest | hrest⟩ := hbrings.exists_stop hstop
    · obtain ⟨pulled, item, hpulled, hfails⟩ := exists_failsAt hevent (hrest.trans hleft)
      exact ⟨pulled, item, hfails, Or.inl hpulled⟩
    · obtain ⟨pulled, item, hpulled, hfails⟩ := exists_failsAt hevent (hrest.trans hright)
      exact ⟨pulled, item, hfails, Or.inr hpulled⟩

/-- Behind the end a join brings no pair. -/
theorem pair_notMem_later {join : Join} (hsplit : polls count join = before ++ .ended :: later)
    (value : PairedRow) : .pair value ∉ later := by
  obtain ⟨-, hended, hlater⟩ := polls_eq_append_cons hsplit
  have hexhausted : (join.after (before.length + 1)).Exhausted := by
    rw [after_succ]
    exact exhausted_of_ended hended.symm
  intro hvalue
  have hpair : value ∈ later.filterMap Polled.pair? := List.mem_filterMap.mpr ⟨_, hvalue, rfl⟩
  rw [hlater, hexhausted.polls] at hpair
  cases hpair

/-- The end comes behind a failure or when one of the sides has pulled everything. -/
theorem hasPulled_of_ended
    (hsplit : polls count (ofEvents left right) = before ++ .ended :: later) :
    (∃ answer ∈ before, answer.isFailure = true) ∨
      HasPulled left left ((ofEvents left right).after (before.length + 1)).left ∨
      HasPulled right right ((ofEvents left right).after (before.length + 1)).right := by
  obtain ⟨hbefore, hended, -⟩ := polls_eq_append_cons hsplit
  rw [after_succ]
  rcases poll_cases ((ofEvents left right).after before.length) with ⟨hfailed, -⟩ | ⟨-, hbrings⟩
  · left
    rw [hbefore]
    exact exists_isFailure_of_failed rfl hfailed
  · right
    have hall (events : List (Event ScoredRow)) : HasPulled events events [] :=
      ⟨[], by simp, by simp⟩
    rcases hbrings.eq_nil_of_ended hended.symm with hside | hside
    · exact Or.inl (hside ▸ hall left)
    · exact Or.inr (hside ▸ hall right)

end Streams

/-- What any number of polls bring of any two streams. Every poll answers, and no item is pulled
twice. The keys of the pairs ascend strictly, and each pair is made of a row of either stream. There
is at most one failure, behind which the join only ends; it is a fault or a breakdown that a stream
brought, or the disorder of a row against the greatest key accepted before it, in the item that was
pulled last. The end comes behind a failure or when all of a stream has been pulled, and no pair
follows it. -/
theorem polls_shape (left right : List (Event ScoredRow)) (count : ℕ) :
    let start := ofEvents left right
    let answers := polls count start
    (answers.length = count ∧
      (∃ pulled, HasPulled left pulled (start.after count).left) ∧
      ∃ pulled, HasPulled right pulled (start.after count).right) ∧
    ((answers.filterMap Polled.pair?).Pairwise (fun x y => x.key < y.key) ∧
      ∀ value, .pair value ∈ answers → .row value.sideA ∈ left ∧ .row value.sideB ∈ right) ∧
    (answers.countP Polled.isFailure ≤ 1 ∧
      ∀ before stop later, answers = before ++ stop :: later → stop.isFailure = true →
        (∀ answer ∈ later, answer = .ended) ∧
        ∃ pulled item, FailsAt pulled item stop ∧
          (HasPulled left (pulled ++ [item]) (start.after (before.length + 1)).left ∨
            HasPulled right (pulled ++ [item]) (start.after (before.length + 1)).right)) ∧
    ∀ before later, answers = before ++ .ended :: later →
      (∀ value, .pair value ∉ later) ∧
      ((∃ answer ∈ before, answer.isFailure = true) ∨
        HasPulled left left (start.after (before.length + 1)).left ∨
        HasPulled right right (start.after (before.length + 1)).right) := by
  intro start answers
  obtain ⟨hleft, hright⟩ := after_ofEvents_suffix left right count
  have hanswered : answers.length = count ∧
      (∃ pulled, HasPulled left pulled (start.after count).left) ∧
      ∃ pulled, HasPulled right pulled (start.after count).right :=
    ⟨length_polls count start, exists_hasPulled hleft, exists_hasPulled hright⟩
  refine ⟨hanswered, pairs_polls_ofEvents left right count,
    ⟨countP_isFailure_polls start count, ?_⟩, ?_⟩
  · intro before stop later hsplit hstop
    exact ⟨eq_ended_of_mem_later hsplit hstop, exists_failsAt_of_polls hsplit hstop⟩
  · intro before later hsplit
    exact ⟨pair_notMem_later hsplit, hasPulled_of_ended hsplit⟩

/-- A failure can come behind the end: the left side is pulled on, and its disorder is found. -/
example : polls 3 (ofEvents [.row ⟨2, .label "a"⟩, .row ⟨1, .label "b"⟩] []) =
    [.ended, .fault (.outOfOrder 2 1), .ended] := rfl

end Join

end Scorebook
