import Scorebook.Proofs.Statistics
import Scorebook.Proofs.Workers.Moves

/-!
# What workers answer

What a worker answers depends on when it sees a cancellation that another stream requests, and
so on who moves when. Still there are only two answers for a score: the one it has when no other
score is computed, and a cancellation. The second is given only if some score is cancelled when it
is computed alone.
-/

namespace Scorebook

variable {α : Type} [Arithmetic α]

namespace Accumulator

/-- Taking in the rows of a score one by one gives the statistics of all of them. -/
theorem summary_foldl_push (definition : Definition) (settings : Settings)
    (rows : List ScoredRow) :
    (rows.foldl push (start definition)).summary settings =
      Summary.ofRows (α := α) definition settings rows := by
  cases htype : definition.scoringType with
  | numeric | ragas =>
    have hfold : rows.foldl push (numeric (α := α) .empty) = numeric _ :=
      List.foldl_hom numeric fun _ _ => rfl
    simp only [Summary.ofRows, start, htype, hfold, summary]
  | nominal =>
    have hfold (state : Coder × Nominal.Sample) :
        rows.foldl push (nominal (α := α) state.1 state.2) =
          nominal (rows.foldl Nominal.pushCoded state).1 (rows.foldl Nominal.pushCoded state).2 :=
      List.foldl_hom (fun state : Coder × Nominal.Sample => nominal state.1 state.2)
        fun _ _ => rfl
    simp only [Summary.ofRows, start, htype, hfold (_, .empty), summary]
  | ordinal =>
    have hfold (sample : Ordinal.Sample) :
        rows.foldl push (ordinal (α := α) (.ofDefinition definition) sample) = ordinal _ _ :=
      List.foldl_hom (ordinal (.ofDefinition definition)) fun _ _ => rfl
    simp only [Summary.ofRows, start, htype, hfold, summary]

end Accumulator

section Requests

variable (request : Request)

/-- What a score is answered with when no other score is computed. -/
def Request.alone (scoreId : String) : Except EngineFault (Summary α) :=
  (request.engine.population request.cancelled (request.population scoreId)).1

variable (α) in
/-- Some score is cancelled when no other is computed. -/
def Request.Cancels : Prop :=
  ∃ scoreId ∈ request.scoreIds, request.alone (α := α) scoreId = .error .cancelled

variable (α) in
/-- What the flag can be while the scores are computed: it stays set, and it is set for a
reason. -/
structure Request.Flags (cancelled : Cancelled) : Prop where
  kept : request.cancelled = true → cancelled = true
  raised : cancelled = true → request.cancelled = true ∨ request.Cancels α

/-- What a score can be answered with: as when no other score is computed, or with a cancellation
if some score is cancelled then. -/
def Request.Settles (answer : ScoreAnswer α) : Prop :=
  request.alone answer.1 = answer.2 ∨ answer.2 = .error .cancelled ∧ request.Cancels α

/-- What the rows taken in so far and the unused events come to if no other score is computed. -/
def Reading.outcome (reading : Reading α) (unused : List (Event ScoredRow)) :
    Except EngineFault (Summary α) :=
  (verdict request.cancelled unused).map fun rows =>
    (rows.foldl Accumulator.push reading.rows).summary request.engine.settings

/-- A population is read soundly if what it comes to is the answer that the score has when no
other is computed. Behind a request of cancellation that the score meets then, it does not
matter what it comes to. -/
structure Reading.Sound (cancelled : Cancelled) (reading : Reading α)
    (unused : List (Event ScoredRow)) : Prop where
  whole : Event.crash ∉ unused
  answer : request.alone reading.scoreId = reading.outcome request unused ∨
    cancelled = true ∧ request.alone (α := α) reading.scoreId = .error .cancelled

/-- A worker is sound if what it does ends in an answer that its score can have. -/
def Worker.Sound (shared : Shared α) : Worker α → Prop
  | idle | opening _ => True
  | pulling reading => reading.Sound request shared.cancelled reading.events
  | checking reading pulled => reading.Sound request shared.cancelled (reading.unused pulled)
  | sending answer => request.Settles answer
  | stopped => shared.queue = []
  | crashed _ => False

end Requests

variable {request : Request}

/-- A population that cannot be opened is answered with the reason. -/
theorem Request.alone_of_unopened {scoreId : String} {fault : EngineFault}
    (hopened : request.engine.opened (request.population scoreId) = .error fault) :
    request.alone (α := α) scoreId = .error fault := by
  simp only [Request.alone, Engine.population_eq_opened, hopened]

/-- A population that was opened is answered with the verdict on its stream. -/
theorem Request.alone_eq_verdict (hcrash : request.engine.source.NeverCrashes) {scoreId : String}
    {definition : Definition} {events : List (Event ScoredRow)}
    (hopened : request.engine.opened (request.population scoreId) = .ok (definition, events)) :
    request.alone (α := α) scoreId =
      (verdict request.cancelled events).map
        (Summary.ofRows definition request.engine.settings) := by
  simp only [Request.alone, Engine.population_eq_verdict hcrash, hopened]

/-- A request whose flag is not set was not cancelled before. -/
theorem Request.Flags.cancelled_eq_false (hflags : request.Flags α false) :
    request.cancelled = false := by
  cases h : request.cancelled with
  | false => rfl
  | true => cases hflags.kept h

namespace Reading

variable {reading : Reading α} {cancelled : Cancelled} {events : List (Event ScoredRow)}

/-- A population that was opened has everything before it. -/
theorem Sound.opened (hcrash : request.engine.source.NeverCrashes) {scoreId : String}
    {definition : Definition}
    (hopened : request.engine.opened (request.population scoreId) = .ok (definition, events)) :
    Sound (α := α) request cancelled ⟨scoreId, .start definition, events⟩ events where
  whole := hcrash _ _ (Engine.rows_of_opened hopened)
  answer := by
    left
    simp only [Request.alone_eq_verdict hcrash hopened, outcome, Accumulator.summary_foldl_push]

/-- A request of cancellation goes before everything that was read. -/
theorem outcome_of_cancelledBy (hcancelled : cancelledBy request.cancelled events = true) :
    reading.outcome request events = .error .cancelled := by
  rw [outcome, verdict_of_cancelledBy hcancelled]
  rfl

/-- A score that meets a request of cancellation is cancelled when no other is computed. -/
theorem Sound.alone_of_cancel (hsound : reading.Sound request cancelled (.cancel :: events)) :
    request.alone (α := α) reading.scoreId = .error .cancelled := by
  rcases hsound.answer with h | ⟨-, h⟩
  · rw [h, outcome_of_cancelledBy (cancelledBy_cancel _ _)]
  · exact h

/-- Once the flag is set a score can be answered with a cancellation. -/
theorem Sound.settles_cancelled (hsound : reading.Sound request true events)
    (hflags : request.Flags α true) :
    request.Settles (α := α) (reading.scoreId, .error .cancelled) := by
  rcases hflags.raised rfl with hcancelled | hcancels
  · left
    rcases hsound.answer with h | ⟨-, h⟩
    · rw [h, outcome_of_cancelledBy (by rw [hcancelled, cancelledBy_true])]
    · exact h
  · exact Or.inr ⟨rfl, hcancels⟩

/-- As long as the flag is not set a score comes to the answer that it has when no other is
computed. -/
theorem Sound.alone_eq (hsound : reading.Sound request false events) :
    request.alone (α := α) reading.scoreId = reading.outcome request events := by
  rcases hsound.answer with h | ⟨h, -⟩
  · exact h
  · cases h

/-- As long as the flag is not set a row can be taken in. -/
theorem Sound.push {value : ScoredRow} (hflags : request.Flags α false)
    (hsound : reading.Sound request false (.row value :: events)) :
    Sound request false { reading with rows := reading.rows.push value } events where
  whole := List.not_mem_of_not_mem_cons hsound.whole
  answer := by
    left
    rw [hsound.alone_eq, outcome, outcome, hflags.cancelled_eq_false, verdict_row]
    cases verdict false events <;> rfl

/-- As long as the flag is not set a score is answered with its first fault. -/
theorem Sound.settles_fault {cause : SourceFault} (hflags : request.Flags α false)
    (hsound : reading.Sound request false (.fault cause :: events)) :
    request.Settles (α := α) (reading.scoreId, .error (.source cause)) := by
  left
  rw [hsound.alone_eq, outcome, hflags.cancelled_eq_false, verdict_fault]
  rfl

/-- As long as the flag is not set a score is answered with the statistics of its rows. -/
theorem Sound.settles_summary (hflags : request.Flags α false)
    (hsound : reading.Sound request false []) :
    request.Settles (reading.scoreId, .ok (reading.rows.summary request.engine.settings)) := by
  left
  rw [hsound.alone_eq, outcome, hflags.cancelled_eq_false, verdict_nil]
  rfl

end Reading

section Moves

variable {worker : Worker α} {shared : Shared α} {move : Move α}

/-- The flag is raised for a reason only. -/
theorem Worker.Sound.flags (hsound : worker.Sound request shared)
    (hflags : request.Flags α shared.cancelled)
    (hheld : ∀ scoreId ∈ worker.held, scoreId ∈ request.scoreIds)
    (hmove : worker.move? request shared = some move) :
    request.Flags α move.shared.cancelled := by
  rcases Worker.move?_cancelled hmove with hsame | ⟨reading, events, rfl, hevents, hraised⟩
  · rwa [hsame]
  · rw [Worker.Sound, hevents] at hsound
    have hlisted : reading.scoreId ∈ request.scoreIds := hheld _ (by simp [Worker.held])
    exact ⟨fun _ => hraised, fun _ => Or.inr ⟨_, hlisted, hsound.alone_of_cancel⟩⟩

/-- A sound worker stays sound when it moves. -/
theorem Worker.Sound.after (hcrash : request.engine.source.NeverCrashes)
    (hflags : request.Flags α shared.cancelled)
    (hsound : worker.Sound request shared) (hmove : worker.move? request shared = some move) :
    move.worker.Sound request move.shared := by
  cases worker with
  | idle =>
    simp only [Worker.move?] at hmove
    split at hmove <;> cases hmove
    · assumption
    · trivial
  | opening scoreId =>
    simp only [Worker.move?] at hmove
    split at hmove <;> cases hmove
    · exact Or.inl (Request.alone_of_unopened ‹_›)
    · exact Reading.Sound.opened hcrash ‹_›
  | pulling reading =>
    simp only [Worker.move?] at hmove
    split at hmove <;> cases hmove <;> rename_i hevents <;> rw [Worker.Sound, hevents] at hsound
    -- The end of the stream, a row and a fault are only pulled here; nothing is used yet.
    · exact ⟨hsound.whole, hsound.answer⟩
    · exact ⟨hsound.whole, hsound.answer⟩
    · exact ⟨hsound.whole, hsound.answer⟩
    -- Behind a request of cancellation only the flag counts.
    · exact ⟨List.not_mem_of_not_mem_cons hsound.whole, Or.inr ⟨rfl, hsound.alone_of_cancel⟩⟩
    · exact absurd List.mem_cons_self hsound.whole
  | checking reading pulled =>
    rw [Worker.Sound] at hsound
    cases hflag : shared.cancelled with
    | true =>
      rw [hflag] at hsound hflags
      simp only [Worker.move?, hflag, if_true] at hmove
      cases hmove
      exact hsound.settles_cancelled hflags
    | false =>
      rw [hflag] at hsound hflags
      simp only [Worker.move?, hflag, Bool.false_eq_true, if_false] at hmove
      rcases pulled with _ | cause | value <;> cases hmove
      · exact hsound.settles_summary hflags
      · exact hsound.settles_fault hflags
      · rw [Worker.Sound, hflag]
        exact hsound.push hflags
  | sending answer =>
    cases hmove
    trivial
  | stopped | crashed _ => cases hmove

/-- A sound worker stays sound when another one moves. -/
theorem Worker.Sound.others {other : Worker α} (hmove : other.move? request shared = some move)
    (hsound : worker.Sound request shared) : worker.Sound request move.shared := by
  have hset := Worker.move?_cancelled_mono hmove
  cases worker with
  | idle | opening _ => trivial
  | pulling reading => exact ⟨hsound.whole, hsound.answer.imp_right (And.imp_left hset)⟩
  | checking reading pulled =>
    exact ⟨hsound.whole, hsound.answer.imp_right (And.imp_left hset)⟩
  | sending answer => exact hsound
  | stopped => exact Worker.move?_queue_eq_nil hmove hsound
  | crashed _ => exact hsound.elim

end Moves

namespace Pool

variable {trace : List (Action α)} {pool next : Pool α} {action : Action α}

/-- All workers are sound, and so are the answers they sent. -/
structure Sound (request : Request) (pool : Pool α) : Prop where
  flags : request.Flags α pool.shared.cancelled
  workers : ∀ worker ∈ pool.workers, worker.Sound request pool.shared
  channel : ∀ answer ∈ pool.shared.channel, request.Settles answer

theorem sound_start : (start request : Pool α).Sound request where
  flags := ⟨id, Or.inl⟩
  workers := by
    intro worker hworker
    rw [List.eq_of_mem_replicate hworker]
    trivial
  channel := by simp [start]

/-- A step keeps a pool sound: the worker that moves is still sound, and the others do not mind. -/
theorem Sound.step (hcrash : request.engine.source.NeverCrashes)
    (hbalances : pool.Balances request trace) (hsound : pool.Sound request)
    (hstep : Step request pool action next) : next.Sound request := by
  cases hstep with
  | @move before after worker shared move hmove =>
    obtain ⟨hflags, hworkers, hchannel⟩ := hsound
    have hworker : worker.Sound request shared := hworkers worker (by simp)
    have hheld : ∀ scoreId ∈ worker.held, scoreId ∈ request.scoreIds :=
      hbalances.held_listed (by simp)
    have hflags' := hworker.flags hflags hheld hmove
    have hsent := (Worker.move?_shared hmove).2
    refine ⟨hflags', fun other hother => ?_, fun answer hanswer => ?_⟩
    · rcases List.mem_append.mp hother with hbefore | hother
      · exact (hworkers other (by simp [hbefore])).others hmove
      · rcases List.mem_cons.mp hother with rfl | hafter
        · exact hworker.after hcrash hflags hmove
        · exact (hworkers other (by simp [hafter])).others hmove
    · rw [hsent, List.mem_append] at hanswer
      rcases hanswer with hold | hnew
      · exact hchannel answer hold
      · rw [Worker.move?_sent hmove hnew] at hworker
        exact hworker

/-- However the workers move, they are sound. -/
theorem Run.sound (hcrash : request.engine.source.NeverCrashes) (hrun : Run request trace pool) :
    pool.Sound request := by
  induction hrun with
  | start => exact sound_start
  -- The balance says that the worker that raises the flag holds one of the listed scores.
  | step hrun hstep ih => exact ih.step hcrash hrun.balances hstep

end Pool

end Scorebook
