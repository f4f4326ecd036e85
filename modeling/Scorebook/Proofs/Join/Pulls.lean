import Mathlib.Data.List.Infix
import Mathlib.Order.Bounds.Basic
import Scorebook.Proofs.Columns
import Scorebook.Proofs.Join.Merge
import Scorebook.Proofs.Passes

/-!
# What a poll pulls

A join checks the order of a side as it goes: an item is passed on or replaced by a fault of
disorder according to the items pulled before it, and no item is left out. A poll pulls some items
of either side and leaves the rest. It pairs the last rows that it pulled, reports what it met on
one side, or finds a side that has no more items.
-/

namespace Scorebook

/-- The rows of a side that pass the check of the order. -/
def accepted (last : Option ℕ) (events : List (Event ScoredRow)) : List ScoredRow :=
  (inOrder last events).filterMap Event.row?

/-- The key that the check of the order holds behind some events: that of the last accepted row. -/
def heldKey (last : Option ℕ) (events : List (Event ScoredRow)) : Option ℕ :=
  (accepted last events).foldl (fun _ row => some row.key) last

/-- The check of the order takes one item at a time. It accepts a row whose key exceeds the key that
it holds, and then holds the new one; it replaces any other row; and it passes what is no row. -/
theorem inOrder_cons_cases (last : Option ℕ) (event : Event ScoredRow) :
    (∃ row, event = .row row ∧ (∀ key ∈ last, key < row.key) ∧
      ∀ rest, inOrder last (event :: rest) = .row row :: inOrder (some row.key) rest) ∨
    (∃ row key, event = .row row ∧ last = some key ∧ row.key ≤ key ∧
      ∀ rest, inOrder last (event :: rest) =
        .fault (.outOfOrder key row.key) :: inOrder last rest) ∨
    (event.row? = none ∧ ∀ rest, inOrder last (event :: rest) = event :: inOrder last rest) := by
  cases event with
  | row row =>
    cases last with
    | none => exact Or.inl ⟨row, rfl, by simp, fun _ => rfl⟩
    | some key =>
      by_cases hle : row.key ≤ key
      · exact Or.inr (Or.inl ⟨row, key, rfl, rfl, hle, fun _ => by rw [inOrder, if_pos hle]⟩)
      · refine Or.inl ⟨row, rfl, ?_, fun _ => by rw [inOrder, if_neg hle]⟩
        simpa using hle
  | fault cause => exact Or.inr (Or.inr ⟨rfl, fun _ => by cases last <;> rfl⟩)
  | cancel => exact Or.inr (Or.inr ⟨rfl, fun _ => by cases last <;> rfl⟩)
  | crash => exact Or.inr (Or.inr ⟨rfl, fun _ => by cases last <;> rfl⟩)

/-- The check of the order can be interrupted: it goes on with the key that it holds. -/
theorem inOrder_append (last : Option ℕ) (before after : List (Event ScoredRow)) :
    inOrder last (before ++ after) =
      inOrder last before ++ inOrder (heldKey last before) after := by
  unfold heldKey accepted
  induction before generalizing last with
  | nil => rfl
  | cons event before ih =>
    rcases inOrder_cons_cases last event with
      ⟨row, rfl, -, hcons⟩ | ⟨row, key, rfl, rfl, -, hcons⟩ | ⟨hrow, hcons⟩
    · rw [List.cons_append, hcons, hcons, ih (some row.key)]
      rfl
    · rw [List.cons_append, hcons, hcons, ih (some key)]
      rfl
    · rw [List.cons_append, hcons, hcons, ih last, List.filterMap_cons_none hrow]
      rfl

/-- The accepted rows have strictly ascending keys, all of them beyond the key held before. -/
theorem accepted_ascending (last : Option ℕ) (events : List (Event ScoredRow)) :
    AscendingRows (accepted last events) ∧
      ∀ key ∈ last, ∀ row ∈ accepted last events, key < row.key := by
  unfold accepted
  induction events generalizing last with
  | nil => exact ⟨List.Pairwise.nil, by simp [inOrder]⟩
  | cons event events ih =>
    rcases inOrder_cons_cases last event with
      ⟨row, rfl, hlast, hcons⟩ | ⟨row, key, rfl, rfl, -, hcons⟩ | ⟨hrow, hcons⟩
    · obtain ⟨hrows, hkeys⟩ := ih (some row.key)
      simp only [hcons, List.filterMap_cons, Event.row?]
      refine ⟨List.pairwise_cons.mpr ⟨hkeys row.key rfl, hrows⟩, fun key hkey other hother => ?_⟩
      have hlt := hlast key hkey
      rcases List.mem_cons.mp hother with rfl | hother
      · exact hlt
      · exact hlt.trans (hkeys row.key rfl other hother)
    · rw [hcons, List.filterMap_cons_none rfl]
      exact ih (some key)
    · rw [hcons, List.filterMap_cons_none hrow]
      exact ih last

/-- The check of the order invents no row. -/
theorem row_mem_of_mem_accepted {last : Option ℕ} {events : List (Event ScoredRow)}
    {row : ScoredRow} (hrow : row ∈ accepted last events) : .row row ∈ events := by
  unfold accepted at hrow
  induction events generalizing last with
  | nil => simp [inOrder] at hrow
  | cons event events ih =>
    rcases inOrder_cons_cases last event with
      ⟨first, rfl, -, hcons⟩ | ⟨first, key, rfl, rfl, -, hcons⟩ | ⟨hnone, hcons⟩
    · simp only [hcons, List.filterMap_cons, Event.row?] at hrow
      rcases List.mem_cons.mp hrow with rfl | hrow
      · exact List.mem_cons_self
      · exact List.mem_cons_of_mem _ (ih hrow)
    · rw [hcons, List.filterMap_cons_none rfl] at hrow
      exact List.mem_cons_of_mem _ (ih hrow)
    · rw [hcons, List.filterMap_cons_none hnone] at hrow
      exact List.mem_cons_of_mem _ (ih hrow)

/-- The key held from the start of a side is the greatest one that was accepted. -/
theorem isGreatest_heldKey {events : List (Event ScoredRow)} {key : ℕ}
    (hkey : heldKey none events = some key) :
    IsGreatest {k | ∃ row ∈ accepted none events, row.key = k} key := by
  have hrows := (accepted_ascending none events).1
  unfold heldKey at hkey
  generalize accepted none events = rows at hkey hrows
  rcases List.eq_nil_or_concat rows with rfl | ⟨before, row, rfl⟩
  · cases hkey
  · obtain rfl : row.key = key := by simpa using hkey
    refine ⟨⟨row, by simp, rfl⟩, ?_⟩
    rintro _ ⟨other, hother, rfl⟩
    rw [List.concat_eq_append, List.mem_append, List.mem_singleton] at hother
    rcases hother with hother | rfl
    · rw [List.concat_eq_append] at hrows
      exact ((List.pairwise_append.mp hrows).2.2 other hother row (by simp)).le
    · exact le_rfl

/-- The check of the order leaves no item out. -/
theorem length_inOrder (last : Option ℕ) (events : List (Event ScoredRow)) :
    (inOrder last events).length = events.length := by
  induction events generalizing last with
  | nil => rfl
  | cons event events ih =>
    rcases inOrder_cons_cases last event with
      ⟨_, _, _, hcons⟩ | ⟨_, _, _, _, _, hcons⟩ | ⟨_, hcons⟩ <;>
      rw [hcons, List.length_cons, List.length_cons, ih]

/-- A side can be cut where it is cut behind the check of the order. -/
theorem exists_pulled_of_inOrder_eq_append {last : Option ℕ}
    {events front side : List (Event ScoredRow)} (hcut : inOrder last events = front ++ side) :
    ∃ pulled rest, events = pulled ++ rest ∧ inOrder last pulled = front := by
  refine ⟨events.take front.length, events.drop front.length, (List.take_append_drop _ _).symm, ?_⟩
  have hlength := congrArg List.length hcut
  rw [length_inOrder, List.length_append] at hlength
  have hsplit := inOrder_append last (events.take front.length) (events.drop front.length)
  rw [List.take_append_drop, hcut] at hsplit
  refine (List.append_inj_left hsplit ?_).symm
  rw [length_inOrder, List.length_take]
  omega

/-- A side that has pulled some of its events: what the check of the order leaves of it. -/
def HasPulled (events pulled side : List (Event ScoredRow)) : Prop :=
  ∃ rest, events = pulled ++ rest ∧ inOrder none events = inOrder none pulled ++ side

/-- A side has pulled something wherever what is left of it ends behind the check of the order. -/
theorem exists_hasPulled {events side : List (Event ScoredRow)}
    (hside : side <:+ inOrder none events) : ∃ pulled, HasPulled events pulled side := by
  obtain ⟨front, hcut⟩ := hside
  obtain ⟨pulled, rest, hevents, hpulled⟩ := exists_pulled_of_inOrder_eq_append hcut.symm
  exact ⟨pulled, rest, hevents, by rw [hpulled, hcut]⟩

/-- How a poll ends that meets an event. -/
def Event.stop? : Event ScoredRow → Option Polled
  | .fault cause => some (.fault cause)
  | .crash => some .crash
  | .row _ | .cancel => none

/-- How a side that has pulled some events fails at the next one. -/
inductive FailsAt (before : List (Event ScoredRow)) : Event ScoredRow → Polled → Prop
  /-- The item is a fault of the stream. -/
  | fault (cause : SourceFault) : FailsAt before (.fault cause) (.fault cause)
  /-- The stream breaks down. -/
  | crash : FailsAt before .crash .crash
  /-- The key of a row does not exceed the greatest key accepted so far. -/
  | disorder {row : ScoredRow} {previous : ℕ}
    (hprevious : IsGreatest {key | ∃ row ∈ accepted none before, row.key = key} previous)
    (hle : row.key ≤ previous) : FailsAt before (.row row) (.fault (.outOfOrder previous row.key))

/-- A side that fails behind the check of the order has a reason to fail at the item that it pulled
last. -/
theorem exists_failsAt {events side : List (Event ScoredRow)} {event : Event ScoredRow}
    {stop : Polled} (hstop : event.stop? = some stop)
    (hside : event :: side <:+ inOrder none events) :
    ∃ before item, HasPulled events (before ++ [item]) side ∧ FailsAt before item stop := by
  obtain ⟨front, hcut⟩ := hside
  rw [← List.singleton_append, ← List.append_assoc] at hcut
  obtain ⟨pulled, rest, hevents, hpulled⟩ := exists_pulled_of_inOrder_eq_append hcut.symm
  obtain ⟨before, item, rfl⟩ : ∃ before item, pulled = before ++ [item] := by
    rcases List.eq_nil_or_concat pulled with rfl | ⟨before, item, rfl⟩
    · simp [inOrder] at hpulled
    · exact ⟨before, item, List.concat_eq_append⟩
  refine ⟨before, item, ⟨rest, hevents, by rw [hpulled, hcut]⟩, ?_⟩
  -- The last item is the one from which the check of the order made the event.
  rw [inOrder_append] at hpulled
  have hlast := List.append_inj_right' hpulled (by simp [length_inOrder])
  rcases inOrder_cons_cases (heldKey none before) item with
    ⟨row, rfl, -, hcons⟩ | ⟨row, key, rfl, hkey, hle, hcons⟩ | ⟨hrow, hcons⟩
  · obtain rfl : .row row = event := by simpa [hcons, inOrder] using hlast
    cases hstop
  · obtain rfl : .fault (.outOfOrder key row.key) = event := by simpa [hcons, inOrder] using hlast
    cases hstop
    exact .disorder (isGreatest_heldKey hkey) hle
  · obtain rfl : item = event := by simpa [hcons, inOrder] using hlast
    cases item with
    | row row => cases hstop
    | cancel => cases hstop
    | fault cause =>
      cases hstop
      exact .fault cause
    | crash =>
      cases hstop
      exact .crash

/-- What a poll of two sides can bring, with what it leaves of them. -/
inductive Poll.Brings (left right : List (Event ScoredRow)) : Poll → Prop
  /-- The last rows that were pulled make a pair. -/
  | pair {value : PairedRow} {cancelled : Cancelled} {restL restR : List (Event ScoredRow)}
    (hleft : .row value.sideA :: restL <:+ left) (hright : .row value.sideB :: restR <:+ right) :
    Brings left right ⟨.pair value, cancelled, restL, restR, false⟩
  /-- The left side fails at the last item that was pulled from it. -/
  | stopLeft {event : Event ScoredRow} {stop : Polled} {cancelled : Cancelled}
    {restL restR : List (Event ScoredRow)} (hstop : event.stop? = some stop)
    (hleft : event :: restL <:+ left) (hright : restR <:+ right) :
    Brings left right ⟨stop, cancelled, restL, restR, true⟩
  /-- The right side fails at the last item that was pulled from it. -/
  | stopRight {event : Event ScoredRow} {stop : Polled} {cancelled : Cancelled}
    {restL restR : List (Event ScoredRow)} (hstop : event.stop? = some stop)
    (hleft : restL <:+ left) (hright : event :: restR <:+ right) :
    Brings left right ⟨stop, cancelled, restL, restR, true⟩
  /-- The left side has no more items. -/
  | endLeft {cancelled : Cancelled} {restR : List (Event ScoredRow)} (hright : restR <:+ right) :
    Brings left right ⟨.ended, cancelled, [], restR, false⟩
  /-- The right side has no more items. -/
  | endRight {cancelled : Cancelled} {restL : List (Event ScoredRow)} (hleft : restL <:+ left) :
    Brings left right ⟨.ended, cancelled, restL, [], false⟩

/-- What a poll brings of the rests of two sides it brings of the sides. -/
theorem Poll.Brings.mono {left right left' right' : List (Event ScoredRow)} {poll : Poll}
    (h : poll.Brings left right) (hleft : left <:+ left') (hright : right <:+ right') :
    poll.Brings left' right' := by
  cases h with
  | pair hL hR => exact .pair (hL.trans hleft) (hR.trans hright)
  | stopLeft hstop hL hR => exact .stopLeft hstop (hL.trans hleft) (hR.trans hright)
  | stopRight hstop hL hR => exact .stopRight hstop (hL.trans hleft) (hR.trans hright)
  | endLeft hR => exact .endLeft (hR.trans hright)
  | endRight hL => exact .endRight (hL.trans hleft)

/-- Rows of the same key make a pair. -/
theorem Poll.Brings.rows {a b : ScoredRow} (hkeys : compare a.key b.key = .eq)
    (cancelled : Cancelled) (left right : List (Event ScoredRow)) :
    Poll.Brings (.row a :: left) (.row b :: right)
      ⟨.pair ⟨a.key, a.raw, b.raw⟩, cancelled, left, right, false⟩ := by
  obtain ⟨key, raw⟩ := b
  obtain rfl : a.key = key := Nat.compare_eq_eq.mp hkeys
  exact .pair List.suffix_rfl List.suffix_rfl

namespace Join

/-- Pulling on the right, with a row held on the left, brings what a poll can bring, if pulling on
the left does so once a row is held on the right. -/
theorem meetRight_brings {a : ScoredRow} {left : List (Event ScoredRow)}
    {pullLeft : Cancelled → ScoredRow → List (Event ScoredRow) → Poll}
    (hpull : ∀ cancelled b rest,
      (pullLeft cancelled b rest).Brings (.row a :: left) (.row b :: rest))
    (cancelled : Cancelled) (right : List (Event ScoredRow)) :
    (meetRight a left pullLeft cancelled right).Brings (.row a :: left) right := by
  have hleft : left <:+ .row a :: left := List.suffix_cons _ _
  induction right generalizing cancelled with
  | nil => exact .endRight hleft
  | cons event right ih =>
    have hright : right <:+ event :: right := List.suffix_cons _ _
    cases event with
    | cancel => exact (ih true).mono List.suffix_rfl hright
    | fault cause => exact .stopRight rfl hleft List.suffix_rfl
    | crash => exact .stopRight rfl hleft List.suffix_rfl
    | row b =>
      rw [meetRight]
      split
      next hkeys => exact .rows hkeys cancelled left right
      next => exact hpull cancelled b right
      next => exact (ih cancelled).mono List.suffix_rfl hright

/-- Pulling on the left brings what a poll can bring. A row held on the right counts as still to be
pulled. -/
theorem meetLeft_brings (left : List (Event ScoredRow)) (cancelled : Cancelled)
    (held : Option ScoredRow) (right : List (Event ScoredRow)) :
    (meetLeft left cancelled held right).Brings left (held.toList.map .row ++ right) := by
  induction left generalizing cancelled held right with
  | nil => exact .endLeft (List.suffix_append _ _)
  | cons event left ih =>
    have hright : right <:+ held.toList.map .row ++ right := List.suffix_append _ _
    have hleft : left <:+ event :: left := List.suffix_cons _ _
    cases event with
    | cancel => exact (ih true held right).mono hleft List.suffix_rfl
    | fault cause => exact .stopLeft rfl List.suffix_rfl hright
    | crash => exact .stopLeft rfl List.suffix_rfl hright
    | row a =>
      have hmeet (cancelled : Cancelled) : (meetRight a left
          (fun cancelled b => meetLeft left cancelled (some b)) cancelled right).Brings
            (.row a :: left) right :=
        meetRight_brings (fun cancelled b rest =>
          (ih cancelled (some b) rest).mono hleft List.suffix_rfl) cancelled right
      cases held with
      | none => exact hmeet cancelled
      | some b =>
        rw [meetLeft]
        split
        next hkeys => exact .rows hkeys cancelled left right
        next => exact (ih cancelled (some b) right).mono hleft List.suffix_rfl
        next => exact (hmeet cancelled).mono List.suffix_rfl hright

/-- A poll of a join that has not failed brings what a poll can bring. -/
theorem poll_brings {join : Join} (hrunning : join.failed = false) :
    join.poll.Brings join.left join.right := by
  simpa [poll, hrunning] using meetLeft_brings join.left false none join.right

/-- A poll of a join that has failed brings nothing and changes nothing. -/
theorem poll_of_failed {join : Join} (hfailed : join.failed = true) :
    join.poll = ⟨.ended, false, join⟩ := by
  rw [poll, if_pos hfailed]

end Join

end Scorebook
