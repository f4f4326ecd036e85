import Scorebook.Arithmetic.Double
import Scorebook.Comparison
import Scorebook.Tail.Double

/-!
# What a pass reports

A pass looks at the cancellation flag after each pull, before it uses what the pull brought, and
once more behind the last row. What it reports is therefore decided by the first event that is
no row: a cancellation requested in time goes before everything else, then the first fault ends
the pass, and only a stream of rows alone gives a result. The result is that of all the rows.
-/

namespace Scorebook

variable {α : Type}

namespace Event

/-- The row that an event brings. -/
def row? : Event α → Option α
  | row value => some value
  | _ => none

/-- The fault that an event reports. -/
def fault? : Event α → Option SourceFault
  | fault cause => some cause
  | _ => none

/-- Whether an event requests cancellation. -/
def isCancel : Event α → Bool
  | cancel => true
  | _ => false

end Event

/-- The events before the first fault, which are all events of a stream without faults. -/
def untilFault (events : List (Event α)) : List (Event α) := events.takeWhile (·.fault?.isNone)

/-- Whether cancellation is requested by the end of a pass: before the pass, or while the events
up to the first fault are pulled. -/
def cancelledBy (cancelled : Cancelled) (events : List (Event α)) : Cancelled :=
  cancelled || (untilFault events).any Event.isCancel

/-- What there is to report of a stream that does not break down: a cancellation requested in
time, or else the first fault, or else all of the rows. -/
def verdict (cancelled : Cancelled) (events : List (Event α)) : Except EngineFault (List α) :=
  if cancelledBy cancelled events then .error .cancelled
  else match events.findSome? Event.fault? with
    | some cause => .error (.source cause)
    | none => .ok (events.filterMap Event.row?)

section Events

variable (cancelled : Cancelled) (events : List (Event α))

@[simp] theorem cancelledBy_true : cancelledBy true events = true := rfl

@[simp] theorem cancelledBy_nil : cancelledBy cancelled ([] : List (Event α)) = cancelled := by
  simp [cancelledBy, untilFault]

@[simp] theorem cancelledBy_row (value : α) :
    cancelledBy cancelled (.row value :: events) = cancelledBy cancelled events := by
  simp [cancelledBy, untilFault, Event.fault?, Event.isCancel]

@[simp] theorem cancelledBy_fault (cause : SourceFault) :
    cancelledBy cancelled (.fault cause :: events) = cancelled := by
  simp [cancelledBy, untilFault, Event.fault?]

@[simp] theorem cancelledBy_cancel : cancelledBy cancelled (.cancel :: events) = true := by
  simp [cancelledBy, untilFault, Event.fault?, Event.isCancel]

/-- A request in time goes before everything else. -/
theorem verdict_of_cancelledBy {cancelled : Cancelled} {events : List (Event α)}
    (h : cancelledBy cancelled events = true) : verdict cancelled events = .error .cancelled := by
  simp [verdict, h]

/-- A pass reports a cancellation exactly if one is requested in time. -/
theorem verdict_eq_cancelled_iff {cancelled : Cancelled} {events : List (Event α)} :
    verdict cancelled events = .error .cancelled ↔ cancelledBy cancelled events = true := by
  by_cases hflag : cancelledBy cancelled events = true
  · simp [verdict_of_cancelledBy hflag, hflag]
  · rw [verdict, if_neg hflag]
    split <;> simp [hflag]

/-- A verdict is never a crash. -/
theorem verdict_ne_crash (reason : String) :
    verdict cancelled events ≠ .error (.workerCrashed reason) := by
  unfold verdict
  split
  · simp
  · split <;> simp

/-- Without a request among the events nothing sets the flag. -/
theorem cancelledBy_of_not_mem {events : List (Event α)} (h : Event.cancel ∉ events) :
    cancelledBy false events = false := by
  simp only [cancelledBy, Bool.false_or, List.any_eq_false]
  intro event hevent
  have hmem : event ∈ events := (List.takeWhile_prefix _).subset hevent
  cases event <;> simp_all [Event.isCancel]

/-- A stream without events has no rows to report. -/
theorem verdict_nil : verdict false ([] : List (Event α)) = .ok [] := by
  simp [verdict]

/-- A fault is reported if cancellation was not requested before it. -/
theorem verdict_fault (cause : SourceFault) :
    verdict false (.fault cause :: events) = .error (.source cause) := by
  simp [verdict, List.findSome?_cons, Event.fault?]

/-- A row is passed over if cancellation was not requested before it. -/
theorem verdict_row (value : α) :
    verdict false (.row value :: events) = (verdict false events).map (value :: ·) := by
  simp only [verdict, cancelledBy_row, List.findSome?_cons, List.filterMap_cons, Event.fault?,
    Event.row?]
  split
  · rfl
  · cases events.findSome? Event.fault? <;> rfl

end Events

/-- A pass reports the verdict on its stream, and takes in all rows if these are the verdict. -/
theorem pass_eq_verdict {σ : Type} (step : σ → α → σ) (sample : σ) (cancelled : Cancelled)
    {events : List (Event α)} (hcrash : Event.crash ∉ events) :
    pass step sample cancelled events =
      ((verdict cancelled events).map (·.foldl step sample), cancelledBy cancelled events) := by
  fun_induction pass step sample cancelled events with
  | case1 sample cancelled => cases cancelled <;> simp [verdict, Except.map]
  | case2 sample value rest => simp [verdict, Except.map]
  | case3 sample cancelled value rest hcancelled ih =>
    obtain rfl : cancelled = false := by simpa using hcancelled
    rw [ih (List.not_mem_of_not_mem_cons hcrash), verdict_row, cancelledBy_row]
    cases verdict false rest <;> rfl
  | case4 sample cancelled cause rest =>
    cases cancelled <;> simp [verdict, List.findSome?_cons, Event.fault?, Except.map]
  | case5 sample cancelled rest ih =>
    rw [ih (List.not_mem_of_not_mem_cons hcrash)]
    simp [verdict, Except.map]
  | case6 sample cancelled rest => simp at hcrash

/-- A finished pass reports the verdict on its stream, with what the rows come to in place of the
rows. -/
theorem finish_pass {σ τ : Type} (f : σ → τ) (step : σ → α → σ) (sample : σ)
    (cancelled : Cancelled) {events : List (Event α)} (hcrash : Event.crash ∉ events) :
    finish f (pass step sample cancelled events) =
      ((verdict cancelled events).map fun rows => f (rows.foldl step sample),
        cancelledBy cancelled events) := by
  rw [pass_eq_verdict step sample cancelled hcrash]
  cases hverdict : verdict cancelled events <;> rfl

variable [Arithmetic α]

/-- The statistics of some rows, by the kind of score. -/
def Summary.ofRows (definition : Definition) (settings : Settings) (rows : List ScoredRow) :
    Summary α :=
  let coder := Coder.ofDefinition definition
  match definition.scoringType with
  | .numeric | .ragas =>
    let sample := rows.foldl (fun sample row => sample.pushRaw row.raw) Numeric.Sample.empty
    .numeric (sample.summary settings)
  | .nominal =>
    let (coder, sample) := rows.foldl Nominal.pushCoded (coder, .empty)
    .nominal (sample.summary coder)
  | .ordinal =>
    let sample := rows.foldl (fun sample row => (sample.pushRaw coder row.raw).2)
      (Ordinal.Sample.empty definition.passRule coder)
    .ordinal (sample.summary coder settings.percentiles)

/-- What two sides come to over their shared rows, by the kind of score. -/
def ComparisonBody.ofRows [TailTable α] (definition : Definition) (settings : Settings)
    (rows : List PairedRow) : ComparisonBody α :=
  match definition.scoringType with
  | .numeric | .ragas =>
    .numeric ((rows.foldl Numeric.PairedSample.pushRow .empty).comparison settings)
  | .nominal =>
    .nominal ((rows.foldl Nominal.PairedSample.pushRow (.empty definition)).comparison settings)
  | .ordinal =>
    .ordinal ((rows.foldl Ordinal.PairedSample.pushRow (.empty definition)).comparison settings)

section Reports

variable (definition : Definition) (settings : Settings) (cancelled : Cancelled)

/-- A summary reports the verdict on its stream. -/
theorem summarize_eq_verdict {events : List (Event ScoredRow)} (hcrash : Event.crash ∉ events) :
    summarize definition settings cancelled events =
      ((verdict cancelled events).map (Summary.ofRows (α := α) definition settings),
        cancelledBy cancelled events) := by
  have hrows (rows : List ScoredRow) := Summary.ofRows.eq_def (α := α) definition settings rows
  cases htype : definition.scoringType <;> simp only [htype] at hrows <;>
    simp only [summarize, htype, finish_pass _ _ _ _ hcrash, funext hrows]

/-- A comparison of rows reports the verdict on its stream. -/
theorem compareRows_eq_verdict [TailTable α] {events : List (Event PairedRow)}
    (hcrash : Event.crash ∉ events) :
    compareRows definition settings cancelled events =
      ((verdict cancelled events).map (ComparisonBody.ofRows (α := α) definition settings),
        cancelledBy cancelled events) := by
  have hrows (rows : List PairedRow) :=
    ComparisonBody.ofRows.eq_def (α := α) definition settings rows
  cases htype : definition.scoringType <;> simp only [htype] at hrows <;>
    simp only [compareRows, htype, finish_pass _ _ _ _ hcrash, funext hrows]

/-- Summaries and comparisons are atomic and report what comes first. On a stream of rows, faults
and requests of cancellation, a request before the pass or by the first fault, or by the end if
there is no fault, is all that is reported. Without one the first fault is, and without a fault
the result is that of all the rows. -/
theorem passes_report_verdict [TailTable α] :
    (∀ events : List (Event ScoredRow), Event.crash ∉ events →
      (summarize definition settings cancelled events).1 =
        (verdict cancelled events).map (Summary.ofRows (α := α) definition settings)) ∧
    ∀ (experimentA experimentB : String) (events : List (Event PairedRow)),
      Event.crash ∉ events →
      (compareExperiments definition experimentA experimentB settings cancelled events).1 =
        (verdict cancelled events).map fun rows =>
          ⟨experimentA, experimentB, definition.scoreId, definition.scoringType,
            ComparisonBody.ofRows (α := α) definition settings rows⟩ := by
  constructor
  · intro events hcrash
    rw [summarize_eq_verdict definition settings cancelled hcrash]
  · intro experimentA experimentB events hcrash
    rw [compareExperiments, compareRows_eq_verdict definition settings cancelled hcrash]
    cases verdict cancelled events <;> rfl

end Reports

/-- A request and a fault met on one pull, a request that comes only behind a fault, and a stream of
rows alone, two of which have a number. -/
theorem passes_report_verdict_same_pull :
    let definition := Definition.nominal "topic" none
    let requested : List (Event ScoredRow) :=
      [.row ⟨1, .label "x"⟩, .cancel, .fault (.unavailable "gone")]
    let late : List (Event PairedRow) :=
      [.row ⟨1, .label "x", .label "y"⟩, .fault (.unavailable "gone"), .cancel]
    let rows : List (Event ScoredRow) :=
      [.row ⟨1, .number 1⟩, .row ⟨2, .label "x"⟩, .row ⟨5, .label " 3 "⟩]
    Event.crash ∉ requested ∧ Event.crash ∉ late ∧ Event.crash ∉ rows ∧
      (summarize (α := Float) definition .standard false requested).1 = .error .cancelled ∧
      (compareExperiments (α := Float) definition "first" "second" .standard false late).1 =
        .error (.source (.unavailable "gone")) ∧
      ∃ statistics : Numeric.Summary Float,
        (summarize (.numeric "length") .standard false rows).1 = .ok (.numeric statistics) ∧
        statistics.scored = 2 ∧ statistics.excluded = 1 ∧ statistics.mean = some 2 ∧
        statistics.variance = some 2 := by
  intro definition requested late rows
  have hrequested : Event.crash ∉ requested := by simp [requested]
  have hlate : Event.crash ∉ late := by simp [late]
  have hrows : Event.crash ∉ rows := by simp [rows]
  obtain ⟨hsummary, hcomparison⟩ := passes_report_verdict (α := Float) definition .standard false
  obtain ⟨hnumeric, -⟩ := passes_report_verdict (α := Float) (.numeric "length") .standard false
  refine ⟨hrequested, hlate, hrows, ?_, ?_, ?_⟩
  · rw [hsummary requested hrequested]
    rfl
  · rw [hcomparison "first" "second" late hlate]
    rfl
  · refine ⟨_, (hnumeric rows hrows).trans rfl, ?_⟩
    decide +kernel

end Scorebook
