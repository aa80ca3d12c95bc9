import AcornAlarms.Model.Publish

/-!
# The publish engine

Every request is attempted at once; a failed attempt is retried up to
`maxDeliveryAttempts`. User results go back one by one, automated results in
batches.
-/

namespace AcornAlarms

variable [Platform]

def batchSize : Nat := 50
def maxDeliveryAttempts : Nat := 2

/-- `inFlight` holds the attempts under way, in no order that matters. -/
structure PublishEngine where
  inFlight : List PublishAttempt
  completedBatch : List PublishResult
deriving DecidableEq

namespace PublishEngine

def new : PublishEngine := ⟨[], []⟩

/-- Begin the first attempt of a request. -/
def receive (self : PublishEngine) (publish : Publish) : PublishEngine :=
  { self with inFlight := self.inFlight ++ [.new publish] }

def flushCompletedBatch (self : PublishEngine) : PublishEngine × List PublishOutcome :=
  ({ self with completedBatch := [] }, [.batch self.completedBatch])

/-- Report a finished request: user results at once, automated ones by batch. -/
def handleCompletedWork (self : PublishEngine) (work : SymmetricalResult PublishAttempt) :
    PublishEngine × List PublishOutcome :=
  let isUserInitiated := work.innerRef.request.isUserInitiated
  let response := work.map fun inner => inner.request.intoDetails.key
  if isUserInitiated then (self, [.single response])
  else
    let self := { self with completedBatch := self.completedBatch ++ [response] }
    if batchSize ≤ self.completedBatch.length then self.flushCompletedBatch else (self, [])

/-- An attempt under way returns. -/
def complete (self : PublishEngine) (index : Nat) (delivered : Bool) :
    Option (PublishAttempt × PublishEngine × List PublishOutcome) :=
  match self.inFlight[index]? with
  | none => none
  | some attempt =>
      let self := { self with inFlight := self.inFlight.eraseIdx index }
      if delivered then some (attempt, self.handleCompletedWork (.ok attempt))
      else if attempt.attemptCount < maxDeliveryAttempts then
        some (attempt,
          { self with inFlight := self.inFlight ++ [attempt.incrementAttempt] }, [])
      else some (attempt, self.handleCompletedWork (.err attempt))

/-- The flush tick; one that finds nothing to flush is left out. -/
def tick (self : PublishEngine) : Option (PublishEngine × List PublishOutcome) :=
  if self.completedBatch.isEmpty then none else some self.flushCompletedBatch

variable {self : PublishEngine}

/-- A finished request is reported at once, added to the batch, or completes it. -/
theorem handleCompletedWork_cases (work : SymmetricalResult PublishAttempt) :
    let response := work.map fun inner => inner.request.intoDetails.key
    self.handleCompletedWork work = (self, [.single response]) ∨
    self.handleCompletedWork work =
      ({ self with completedBatch := self.completedBatch ++ [response] }, []) ∨
    self.handleCompletedWork work =
      ({ self with completedBatch := [] }, [.batch (self.completedBatch ++ [response])]) := by
  unfold handleCompletedWork flushCompletedBatch
  simp only
  split
  · exact .inl rfl
  · split
    · exact .inr (.inr rfl)
    · exact .inr (.inl rfl)

/-- What becomes of the result of a finished request. -/
theorem handleCompletedWork_of (delivered : Bool) (attempt : PublishAttempt) :
    let response := .of delivered attempt.detailsRef.key
    self.handleCompletedWork (.of delivered attempt) =
      if attempt.request.isUserInitiated then (self, [.single response])
      else if batchSize ≤ self.completedBatch.length + 1 then
        ({ self with completedBatch := [] }, [.batch (self.completedBatch ++ [response])])
      else ({ self with completedBatch := self.completedBatch ++ [response] }, []) := by
  obtain ⟨request, count⟩ := attempt
  have length : ∀ result, (self.completedBatch ++ [result]).length =
      self.completedBatch.length + 1 := fun _ => List.length_append
  cases request <;> cases delivered <;>
    simp [handleCompletedWork, flushCompletedBatch, SymmetricalResult.of,
      SymmetricalResult.innerRef, SymmetricalResult.map, Publish.isUserInitiated,
      Publish.intoDetails, PublishAttempt.detailsRef, Publish.detailsRef, length]

/-- What becomes of an attempt that returns. -/
theorem complete_of {index : Nat} {attempt : PublishAttempt}
    (found : self.inFlight[index]? = some attempt) (delivered : Bool) :
    self.complete index delivered = some (attempt,
      if delivered = false ∧ attempt.attemptCount < maxDeliveryAttempts then
        ({ self with inFlight := self.inFlight.eraseIdx index ++ [attempt.incrementAttempt] }, [])
      else { self with inFlight := self.inFlight.eraseIdx index }.handleCompletedWork
        (.of delivered attempt)) := by
  unfold complete
  rw [found]
  cases delivered with
  | true => rfl
  | false =>
      by_cases again : attempt.attemptCount < maxDeliveryAttempts
      · simp [again]
      · simp only [again, if_false, Bool.false_eq_true, and_false]
        rfl

/-- Reporting an attempt adds one result of its key to those the handler has not
taken, at the end of the batch or before it. -/
theorem handleCompletedWork_results {delivered : Bool} {attempt : PublishAttempt}
    {next : PublishEngine} {outcomes : List PublishOutcome}
    (reports : (next, outcomes) = self.handleCompletedWork (.of delivered attempt)) :
    next.inFlight = self.inFlight ∧
      (outcomes.flatMap PublishOutcome.results ++ next.completedBatch =
          self.completedBatch ++ [.of delivered attempt.detailsRef.key] ∨
        outcomes.flatMap PublishOutcome.results ++ next.completedBatch =
          .of delivered attempt.detailsRef.key :: self.completedBatch) := by
  rw [handleCompletedWork_of] at reports
  split at reports
  · obtain ⟨rfl, rfl⟩ := Prod.mk.inj reports
    exact ⟨rfl, .inr rfl⟩
  · split at reports
    · obtain ⟨rfl, rfl⟩ := Prod.mk.inj reports
      exact ⟨rfl, .inl (by simp [PublishOutcome.results])⟩
    · obtain ⟨rfl, rfl⟩ := Prod.mk.inj reports
      exact ⟨rfl, .inl rfl⟩

/-- A returning attempt leaves the engine, to be retried or reported. -/
theorem complete_cases {index : Nat} {delivered : Bool} {attempt : PublishAttempt}
    {next : PublishEngine} {outcomes : List PublishOutcome}
    (returns : self.complete index delivered = some (attempt, next, outcomes)) :
    ∃ front back, self.inFlight = front ++ attempt :: back ∧
      ((delivered = false ∧ attempt.attemptCount < maxDeliveryAttempts ∧ outcomes = [] ∧
        next = { self with inFlight := front ++ back ++ [attempt.incrementAttempt] }) ∨
      ((delivered = false → maxDeliveryAttempts ≤ attempt.attemptCount) ∧
        (next, outcomes) = { self with inFlight := front ++ back }.handleCompletedWork
          (.of delivered attempt))) := by
  cases found : self.inFlight[index]? with
  | none => simp [complete, found] at returns
  | some value =>
      obtain ⟨bound, same⟩ := List.getElem?_eq_some_iff.mp found
      have whole : self.inFlight =
          self.inFlight.take index ++ value :: self.inFlight.drop (index + 1) := by
        rw [← same, List.getElem_cons_drop, List.take_append_drop]
      rw [complete_of found, List.eraseIdx_eq_take_drop_succ] at returns
      obtain ⟨rfl, reported⟩ := Prod.mk.inj (Option.some.inj returns)
      refine ⟨_, _, whole, ?_⟩
      split at reported
      · next again =>
          obtain ⟨rfl, rfl⟩ := Prod.mk.inj reported
          exact .inl ⟨again.1, again.2, rfl, rfl⟩
      · next spent =>
          refine .inr ⟨fun failed => ?_, reported.symm⟩
          exact Nat.le_of_not_lt fun again => spent ⟨failed, again⟩

end PublishEngine

end AcornAlarms
