import Scorebook.Fault

/-!
# Streams and passes

A stream is the finite list of what happens when its items are pulled one after another: a row
arrives, the reading fails, a cancellation is requested, or the source breaks down. A pass
feeds the rows to a sample. It is atomic: a failure or a cancellation leaves no result, and a
cancellation requested before or during a pull goes before what that pull brings.
-/

namespace Scorebook

/-- What happens while a stream is pulled. -/
inductive Event (α : Type) where
  /-- A row arrives. -/
  | row (value : α)
  /-- The source fails. -/
  | fault (cause : SourceFault)
  /-- Cancellation is requested; the pull goes on to the next event. -/
  | cancel
  /-- The source breaks down. -/
  | crash
  deriving Repr

/-- Whether cancellation has been requested. Every computation of an engine sees the same flag,
and it is never taken back. -/
abbrev Cancelled := Bool

/-- The reason reported for a source that broke down. -/
def crashReason : String := "unknown panic"

/-- Feeds the rows of a stream to a sample, and returns the flag as the pass leaves it. -/
def pass {σ α : Type} (step : σ → α → σ) :
    σ → Cancelled → List (Event α) → Except EngineFault σ × Cancelled
  | sample, cancelled, [] => (if cancelled then .error .cancelled else .ok sample, cancelled)
  | sample, cancelled, .row value :: rest =>
    if cancelled then (.error .cancelled, cancelled)
    else pass step (step sample value) cancelled rest
  | _, cancelled, .fault cause :: _ =>
    (.error (if cancelled then .cancelled else .source cause), cancelled)
  | sample, _, .cancel :: rest => pass step sample true rest
  | _, cancelled, .crash :: _ => (.error (.workerCrashed crashReason), cancelled)

end Scorebook
