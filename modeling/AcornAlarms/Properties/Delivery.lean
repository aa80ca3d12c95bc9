import AcornAlarms.Effects.PublishLoop
import AcornAlarms.Engine.Coordinator
import AcornAlarms.Library.History
import Mathlib.Data.List.Forall2
import Mathlib.Data.List.Perm.Basic

/-!
# Every publish request is answered once

A request is in flight, buffered or emitted, and never two of these. It is attempted again only
after a failure and emitted with the verdict of its last attempt.
-/

namespace AcornAlarms

open Library

/-- Every entry of related lists has a partner. -/
theorem exists_of_forall₂ {α β : Type} {related : α → β → Prop} {left : List α} {right : List β}
    (all : List.Forall₂ related left right) : ∀ one ∈ left, ∃ other, related one other :=
  ((List.forall₂_and_left _ _).mp (all.imp fun _ other holds => ⟨⟨other, holds⟩, holds⟩)).1

section

variable [Platform]

namespace PublishLoop

variable {self next reached : PublishLoop} {events out : List Event} {action : Action}

/-- What the engine can do, with the numbers of the requests it does it to. -/
inductive Step (self : PublishLoop) : List Event → PublishLoop → Prop where
  | receive {publish} : Step self [.received publish, .attempted self.requests]
      { self with
        engine := self.engine.receive publish
        requests := self.requests + 1
        flying := self.flying ++ [self.requests] }
  | retry {index request attempt} (numbered : self.flying[index]? = some request)
      (found : self.engine.inFlight[index]? = some attempt)
      (again : attempt.attemptCount < maxDeliveryAttempts) :
      Step self [.returned request false, .attempted request]
        { self with
          engine := { self.engine with
            inFlight := self.engine.inFlight.eraseIdx index ++ [attempt.incrementAttempt] }
          flying := self.flying.eraseIdx index ++ [request] }
  | single {index request attempt delivered} (numbered : self.flying[index]? = some request)
      (found : self.engine.inFlight[index]? = some attempt)
      (user : attempt.request.isUserInitiated = true) :
      Step self [.returned request delivered,
          .emitted (.single (.of delivered attempt.detailsRef.key)) [request]]
        { self with
          engine := { self.engine with inFlight := self.engine.inFlight.eraseIdx index }
          flying := self.flying.eraseIdx index }
  | buffer {index request attempt delivered} (numbered : self.flying[index]? = some request)
      (found : self.engine.inFlight[index]? = some attempt)
      (automated : attempt.request.isUserInitiated = false)
      (room : self.engine.completedBatch.length + 1 < batchSize) :
      Step self [.returned request delivered]
        { self with
          engine := {
            inFlight := self.engine.inFlight.eraseIdx index
            completedBatch :=
              self.engine.completedBatch ++ [.of delivered attempt.detailsRef.key] }
          flying := self.flying.eraseIdx index
          buffered := self.buffered ++ [request] }
  | fill {index request attempt delivered} (numbered : self.flying[index]? = some request)
      (found : self.engine.inFlight[index]? = some attempt)
      (automated : attempt.request.isUserInitiated = false) :
      Step self [.returned request delivered,
          .emitted (.batch (self.engine.completedBatch ++ [.of delivered attempt.detailsRef.key]))
            (self.buffered ++ [request])]
        { self with
          engine := {
            inFlight := self.engine.inFlight.eraseIdx index
            completedBatch := [] }
          flying := self.flying.eraseIdx index
          buffered := [] }
  | flush (some : self.engine.completedBatch ≠ []) :
      Step self [.emitted (.batch self.engine.completedBatch) self.buffered]
        { self with engine := { self.engine with completedBatch := [] }, buffered := [] }
  | idle : Step self [] self

/-- Every action is one of these steps. -/
theorem step_cases (fires : self.step action = some (next, out)) : self.Step out next := by
  cases action with
  | receive publish =>
      cases fires
      exact .receive
  | complete index delivered =>
      simp only [step] at fires
      split at fires
      · next request _ engine outcomes numbered returns =>
          cases found : self.engine.inFlight[index]? with
          | none => simp [PublishEngine.complete, found] at returns
          | some attempt =>
              have bound := (List.getElem?_eq_some_iff.mp found).1
              have back : ∀ next, (self.engine.inFlight.eraseIdx index ++ [next]).length =
                  self.engine.inFlight.length := by
                intro next
                rw [List.length_append, List.length_eraseIdx_of_lt bound, List.length_singleton]
                omega
              rw [PublishEngine.complete_of found, PublishEngine.handleCompletedWork_of] at returns
              split at returns
              · next again =>
                  obtain ⟨rfl, again⟩ := again
                  cases returns
                  simp only [follow, back, if_true] at fires
                  cases fires
                  exact .retry numbered found again
              · split at returns
                · next user =>
                    cases returns
                    cases fires
                    exact .single numbered found user
                · next automated =>
                    rw [Bool.not_eq_true] at automated
                    split at returns
                    · cases returns
                      cases fires
                      exact .fill numbered found automated
                    · next room =>
                        cases returns
                        have gone : (self.engine.inFlight.eraseIdx index).length ≠
                            self.engine.inFlight.length := by
                          rw [List.length_eraseIdx_of_lt bound]
                          omega
                        simp only [follow, gone, if_false] at fires
                        cases fires
                        exact .buffer numbered found automated (Nat.lt_of_not_le room)
      · cases fires
  | tick =>
      simp only [step] at fires
      split at fires
      · next engine outcomes ticks =>
          simp only [PublishEngine.tick, Option.ite_none_left_eq_some] at ticks
          obtain ⟨some, flushed⟩ := ticks
          cases flushed
          cases fires
          exact .flush (by simpa using some)
      · cases fires
        exact .idle

/-- The requests received, in order; their numbers are their places. -/
def receivedPublish : Event → Option Publish
  | .received publish => some publish
  | _ => none

/-- The verdict of an attempt for a request. -/
def returnOf (request : Nat) : Event → Option Bool
  | .returned other delivered => if other = request then some delivered else none
  | _ => none

/-- The requests whose results an event emits. -/
def emittedRequests : Event → List Nat
  | .emitted _ requests => requests
  | _ => []

/-- The request of an attempt under way: every earlier attempt failed. -/
structure Flying (events : List Event) (request : Nat) (attempt : PublishAttempt) : Prop where
  received : (events.filterMap receivedPublish)[request]? = some attempt.request
  attempted : events.count (.attempted request) = attempt.attemptCount
  failed : events.count (.returned request false) + 1 = attempt.attemptCount
  pending : .returned request true ∉ events
  within : attempt.attemptCount ≤ maxDeliveryAttempts

/-- A request whose attempts have all returned, with the result of the last. -/
structure Settled (user : Bool) (events : List Event) (request : Nat) (result : PublishResult) :
    Prop where
  received : ∃ publish, (events.filterMap receivedPublish)[request]? = some publish ∧
    publish.isUserInitiated = user ∧ publish.detailsRef.key = result.intoInner
  verdict : latest (returnOf request) events = some result.isOk
  returned : events.count (.attempted request) =
    events.count (.returned request false) + events.count (.returned request true)
  within : events.count (.attempted request) ≤ maxDeliveryAttempts

/-- What an emitted outcome says of the requests it answers. -/
inductive Answer (events : List Event) : PublishOutcome → List Nat → Prop where
  | single {request result} (settled : Settled true events request result) :
      Answer events (.single result) [request]
  | batch {requests results} (nonempty : results ≠ []) (bounded : results.length ≤ batchSize)
      (settled : List.Forall₂ (Settled false events) requests results) :
      Answer events (.batch results) requests

variable {index request : Nat} {attempt : PublishAttempt}

/-- A history has no attempt of a request. -/
def Spares (request : Nat) (out : List Event) : Prop :=
  .attempted request ∉ out ∧ ∀ delivered, .returned request delivered ∉ out

/-- What is received stays received. -/
theorem received_append {publish : Publish}
    (received : (events.filterMap receivedPublish)[request]? = some publish)
    (out : List Event) : ((events ++ out).filterMap receivedPublish)[request]? = some publish := by
  have bound := (List.getElem?_eq_some_iff.mp received).1
  rw [List.filterMap_append, List.getElem?_append_left bound, received]

theorem Spares.counts (spares : Spares request out) (events : List Event) :
    (events ++ out).count (.attempted request) = events.count (.attempted request) ∧
      ∀ delivered, (events ++ out).count (.returned request delivered) =
        events.count (.returned request delivered) := by
  constructor
  · rw [List.count_append, List.count_eq_zero_of_not_mem spares.1, Nat.add_zero]
  · intro delivered
    rw [List.count_append, List.count_eq_zero_of_not_mem (spares.2 delivered), Nat.add_zero]

theorem Flying.append (flying : Flying events request attempt) (spares : Spares request out) :
    Flying (events ++ out) request attempt := by
  obtain ⟨attempted, returned⟩ := spares.counts events
  constructor
  · exact received_append flying.received out
  · rw [attempted, flying.attempted]
  · rw [returned, flying.failed]
  · exact List.not_mem_append flying.pending (spares.2 true)
  · exact flying.within

theorem Settled.append {user : Bool} {result : PublishResult}
    (settled : Settled user events request result) (spares : Spares request out) :
    Settled user (events ++ out) request result := by
  obtain ⟨attempted, returned⟩ := spares.counts events
  constructor
  · obtain ⟨publish, received, rest⟩ := settled.received
    exact ⟨publish, received_append received out, rest⟩
  · have silent : latest (returnOf request) out = none := by
      rw [latest, List.getLast?_eq_none_iff, List.filterMap_eq_nil_iff]
      intro event member
      cases event with
      | returned other delivered =>
          have different : other ≠ request := by
            rintro rfl
            exact spares.2 delivered member
          simp [returnOf, different]
      | received | attempted | emitted => rfl
    rw [latest_append, silent, Option.none_or, settled.verdict]
  · rw [attempted, returned, returned, settled.returned]
  · rw [attempted]
    exact settled.within

/-- The last attempt of a request returns. -/
theorem Flying.settle (flying : Flying events request attempt) (delivered : Bool) :
    Settled attempt.request.isUserInitiated (events ++ [.returned request delivered]) request
      (.of delivered attempt.detailsRef.key) := by
  have attempted := flying.attempted
  have failed := flying.failed
  have within := flying.within
  have succeeded := List.count_eq_zero_of_not_mem flying.pending
  constructor
  · exact ⟨attempt.request, received_append flying.received _, rfl, by simp; rfl⟩
  · rw [latest_append, latest_singleton]
    simp [returnOf]
  · cases delivered <;> simp [List.count_append] <;> omega
  · simp only [List.count_append]
    simp
    omega

/-- Where every request is, and what its attempts say. -/
structure Conserved (events : List Event) (reached : PublishLoop) : Prop where
  numbered : reached.requests = (events.filterMap receivedPublish).length
  flying : List.Forall₂ (Flying events) reached.flying reached.engine.inFlight
  buffered : List.Forall₂ (Settled false events) reached.buffered reached.engine.completedBatch
  room : reached.engine.completedBatch.length < batchSize
  emitted : ∀ {outcome requests}, .emitted outcome requests ∈ events →
    Answer events outcome requests
  /-- Every request received is in flight, buffered or emitted, and in one place only. -/
  once : (reached.flying ++ reached.buffered ++ events.flatMap emittedRequests).Perm
    (List.range reached.requests)
  /-- When an attempt begins, every earlier one of the request has failed. -/
  retried : ∀ {before request after}, events = before ++ .attempted request :: after →
    before.count (.attempted request) = before.count (.returned request false) ∧
      .returned request true ∉ before
  fresh : ∀ request, reached.requests ≤ request → Spares request events

theorem Conserved.start : Conserved [] new where
  numbered := rfl
  flying := .nil
  buffered := .nil
  room := Nat.zero_lt_succ _
  emitted := by simp
  once := .refl _
  retried := by simp
  fresh := by simp [Spares]

theorem Answer.append {outcome : PublishOutcome} {requests : List Nat}
    (answer : Answer events outcome requests) (spares : ∀ request ∈ requests, Spares request out) :
    Answer (events ++ out) outcome requests := by
  cases answer with
  | single settled => exact .single (settled.append (spares _ (List.mem_singleton_self _)))
  | batch nonempty bounded settled =>
      refine .batch nonempty bounded ?_
      exact ((List.forall₂_and_left _ _).mpr ⟨spares, settled⟩).imp fun _ _ both => both.2.append both.1

/-- Events of other requests leave alone what is known of the ones spared. -/
theorem Conserved.keep (conserved : Conserved events self)
    (spares : ∀ request ∈ self.buffered ++ events.flatMap emittedRequests, Spares request out) :
    List.Forall₂ (Settled false (events ++ out)) self.buffered self.engine.completedBatch ∧
      ∀ {outcome requests}, .emitted outcome requests ∈ events →
        Answer (events ++ out) outcome requests := by
  constructor
  · have quiet : ∀ request ∈ self.buffered, Spares request out :=
      fun request member => spares request (List.mem_append_left _ member)
    exact ((List.forall₂_and_left _ _).mpr ⟨quiet, conserved.buffered⟩).imp
      fun _ _ both => both.2.append both.1
  · intro outcome requests member
    refine (conserved.emitted member).append fun request inside => spares request ?_
    exact List.mem_append_right _ (List.mem_flatMap.mpr ⟨_, member, inside⟩)

/-- The same for attempts under way. -/
theorem flying_keep {flying : List Nat} {attempts : List PublishAttempt}
    (all : List.Forall₂ (Flying events) flying attempts)
    (spares : ∀ request ∈ flying, Spares request out) :
    List.Forall₂ (Flying (events ++ out)) flying attempts :=
  ((List.forall₂_and_left _ _).mpr ⟨spares, all⟩).imp fun _ _ both => both.2.append both.1

/-- New events that begin no attempt leave the attempts explained. -/
theorem Conserved.explained (conserved : Conserved events self)
    (begun : ∀ {before request after}, out = before ++ .attempted request :: after →
      (events ++ before).count (.attempted request) =
        (events ++ before).count (.returned request false) ∧
        .returned request true ∉ events ++ before) :
    ∀ {before request after}, events ++ out = before ++ .attempted request :: after →
      before.count (.attempted request) = before.count (.returned request false) ∧
        .returned request true ∉ before := by
  intro before request after split
  rcases split_append split with ⟨rest, old, _⟩ | ⟨early, rfl, new⟩
  · exact conserved.retried old
  · exact begun new

/-- One attempt under way among the others. -/
structure Chosen (events : List Event) (reached : PublishLoop) (index request : Nat)
    (attempt : PublishAttempt) : Prop where
  flying : Flying events request attempt
  rest : List.Forall₂ (Flying events) (reached.flying.eraseIdx index)
    (reached.engine.inFlight.eraseIdx index)
  once : (request :: (reached.flying.eraseIdx index ++ reached.buffered ++
    events.flatMap emittedRequests)).Perm (List.range reached.requests)

theorem Conserved.choose (conserved : Conserved events self)
    (numbered : self.flying[index]? = some request)
    (found : self.engine.inFlight[index]? = some attempt) :
    Chosen events self index request attempt := by
  obtain ⟨bound, here⟩ := List.getElem?_eq_some_iff.mp numbered
  have whole : (request :: self.flying.eraseIdx index).Perm self.flying := by
    rw [← here]
    exact List.getElem_cons_eraseIdx_perm bound
  constructor
  · obtain ⟨attemptBound, there⟩ := List.getElem?_eq_some_iff.mp found
    have pair := conserved.flying.get bound attemptBound
    simpa [here, there] using pair
  · rw [List.eraseIdx_eq_take_drop_succ, List.eraseIdx_eq_take_drop_succ]
    exact List.rel_append (List.forall₂_take _ conserved.flying)
      (List.forall₂_drop _ conserved.flying)
  · refine .trans ?_ conserved.once
    rw [List.append_assoc, List.append_assoc, ← List.cons_append]
    exact whole.append_right _

/-- The others are different requests. -/
theorem Chosen.others (chosen : Chosen events self index request attempt) :
    request ∉ self.flying.eraseIdx index ++ self.buffered ++ events.flatMap emittedRequests := by
  have nodup := chosen.once.nodup_iff.mpr List.nodup_range
  exact (List.nodup_cons.mp nodup).1

theorem Chosen.bound (chosen : Chosen events self index request attempt) :
    request < self.requests :=
  List.mem_range.mp (chosen.once.mem_iff.mp List.mem_cons_self)

/-- Only emissions. -/
def Emits (tail : List Event) : Prop :=
  ∀ event ∈ tail, ∃ outcome requests, event = .emitted outcome requests

variable {tail : List Event} {delivered : Bool}

theorem Emits.spares (emits : Emits tail) (request : Nat) : Spares request tail := by
  constructor
  · intro member
    obtain ⟨_, _, same⟩ := emits _ member
    cases same
  · intro delivered member
    obtain ⟨_, _, same⟩ := emits _ member
    cases same

/-- The return of an attempt says nothing of another request. -/
theorem Emits.spares_other (emits : Emits tail) {other : Nat} (different : other ≠ request) :
    Spares other (.returned request delivered :: tail) := by
  obtain ⟨unattempted, unreturned⟩ := emits.spares other
  simp [Spares, different, unattempted, unreturned]

theorem Spares.append (spares : Spares request events) (later : Spares request out) :
    Spares request (events ++ out) := by
  constructor
  · exact List.not_mem_append spares.1 later.1
  · exact fun delivered => List.not_mem_append (spares.2 delivered) (later.2 delivered)

/-- What is known once an attempt has returned for good. -/
theorem Conserved.settle (conserved : Conserved events self)
    (chosen : Chosen events self index request attempt) (emits : Emits tail) (delivered : Bool) :
    Settled attempt.request.isUserInitiated (events ++ .returned request delivered :: tail) request
        (.of delivered attempt.detailsRef.key) ∧
      List.Forall₂ (Settled false (events ++ .returned request delivered :: tail)) self.buffered
        self.engine.completedBatch := by
  constructor
  · have settled := (chosen.flying.settle delivered).append (emits.spares request)
    rwa [List.append_assoc] at settled
  · refine (conserved.keep fun other member => emits.spares_other ?_).1
    rintro rfl
    apply chosen.others
    rw [List.append_assoc]
    exact List.mem_append_right _ member

/-- The last attempt of a request returns, and its result goes to the buffer or out. -/
theorem Conserved.report (conserved : Conserved events self)
    (chosen : Chosen events self index request attempt) (emits : Emits tail)
    (requests : next.requests = self.requests)
    (flying : next.flying = self.flying.eraseIdx index)
    (inFlight : next.engine.inFlight = self.engine.inFlight.eraseIdx index)
    (buffered : List.Forall₂ (Settled false (events ++ .returned request delivered :: tail))
      next.buffered next.engine.completedBatch)
    (room : next.engine.completedBatch.length < batchSize)
    (answers : ∀ {outcome requests}, .emitted outcome requests ∈ tail →
      Answer (events ++ .returned request delivered :: tail) outcome requests)
    (places : (next.buffered ++ tail.flatMap emittedRequests).Perm (request :: self.buffered)) :
    Conserved (events ++ .returned request delivered :: tail) next := by
  have spares : ∀ other ∈ self.flying.eraseIdx index ++ self.buffered ++
      events.flatMap emittedRequests, Spares other (.returned request delivered :: tail) := by
    intro other member
    apply emits.spares_other
    rintro rfl
    exact chosen.others member
  constructor
  · have silent : tail.filterMap receivedPublish = [] := by
      rw [List.filterMap_eq_nil_iff]
      intro event member
      obtain ⟨_, _, rfl⟩ := emits event member
      rfl
    simp [List.filterMap_append, List.filterMap_cons, receivedPublish, silent, requests,
      conserved.numbered]
  · rw [flying, inFlight]
    exact flying_keep chosen.rest fun other member =>
      spares other (List.mem_append_left _ (List.mem_append_left _ member))
  · exact buffered
  · exact room
  · intro outcome requests member
    rcases List.mem_append.mp member with early | late
    · refine (conserved.keep fun other inside => spares other ?_).2 early
      rw [List.append_assoc]
      exact List.mem_append_right _ inside
    · exact answers ((List.mem_cons.mp late).resolve_left (by simp))
  · rw [requests, flying]
    refine .trans ?_ chosen.once
    have emittedNow : (events ++ .returned request delivered :: tail).flatMap emittedRequests =
        events.flatMap emittedRequests ++ tail.flatMap emittedRequests := by
      simp [emittedRequests]
    rw [emittedNow, List.perm_iff_count]
    intro other
    have moved := places.count_eq other
    simp only [List.count_append, List.count_cons] at moved ⊢
    omega
  · apply conserved.explained
    intro before other after split
    have member : Event.attempted other ∈ .returned request delivered :: tail := by
      rw [split]
      simp
    simp [(emits.spares other).1] at member
  · intro other above
    rw [requests] at above
    have bound := chosen.bound
    exact (conserved.fresh other above).append (emits.spares_other (by omega))

/-- A request arrives. -/
theorem Conserved.receive (conserved : Conserved events self) (publish : Publish) :
    Conserved (events ++ [.received publish, .attempted self.requests])
      { self with
        engine := self.engine.receive publish
        requests := self.requests + 1
        flying := self.flying ++ [self.requests] } := by
  obtain ⟨unattempted, unreturned⟩ := conserved.fresh self.requests (Nat.le_refl _)
  have attempted := List.count_eq_zero_of_not_mem unattempted
  have failed := List.count_eq_zero_of_not_mem (unreturned false)
  have spares : ∀ other, other ≠ self.requests →
      Spares other [.received publish, .attempted self.requests] := by
    intro other different
    simp [Spares, different]
  have others : ∀ other ∈ self.flying ++ (self.buffered ++ events.flatMap emittedRequests),
      Spares other [.received publish, .attempted self.requests] := by
    intro other member
    rw [← List.append_assoc] at member
    exact spares other (Nat.ne_of_lt (List.mem_range.mp (conserved.once.mem_iff.mp member)))
  obtain ⟨buffered, emitted⟩ := conserved.keep fun other member =>
    others other (List.mem_append_right _ member)
  constructor
  · simp [List.filterMap_append, List.filterMap_cons, receivedPublish, conserved.numbered]
  · refine List.rel_append (flying_keep conserved.flying fun other member => ?_) (.cons ?_ .nil)
    · exact others other (List.mem_append_left _ member)
    · constructor
      · have numbered := conserved.numbered
        simp [List.filterMap_append, List.filterMap_cons, receivedPublish, numbered,
          PublishAttempt.new]
      · simp [List.count_append, attempted, PublishAttempt.new]
      · simp [List.count_append, failed, PublishAttempt.new]
      · simp [unreturned]
      · exact Nat.le_succ _
  · exact buffered
  · exact conserved.room
  · intro outcome requests member
    exact emitted (by simpa using member)
  · have silent : (events ++ [Event.received publish, Event.attempted self.requests]).flatMap
        emittedRequests = events.flatMap emittedRequests := by
      simp [emittedRequests]
    rw [silent, List.range_succ]
    refine .trans ?_ (conserved.once.append_right _)
    rw [List.perm_iff_count]
    intro other
    simp only [List.count_append]
    omega
  · apply conserved.explained
    intro before other after split
    rcases split_pair split with ⟨_, same⟩ | ⟨rfl, same⟩
    · cases same
    · obtain rfl := Event.attempted.inj same
      simp [List.count_append, attempted, failed, unreturned]
  · intro other above
    have later : self.requests + 1 ≤ other := above
    exact (conserved.fresh other (by omega)).append (spares other (by omega))

/-- A failed attempt is made again. -/
theorem Conserved.retry (conserved : Conserved events self)
    (chosen : Chosen events self index request attempt)
    (again : attempt.attemptCount < maxDeliveryAttempts) :
    Conserved (events ++ [.returned request false, .attempted request])
      { self with
        engine := { self.engine with
          inFlight := self.engine.inFlight.eraseIdx index ++ [attempt.incrementAttempt] }
        flying := self.flying.eraseIdx index ++ [request] } := by
  have attempted := chosen.flying.attempted
  have failed := chosen.flying.failed
  have pending := chosen.flying.pending
  have count : attempt.incrementAttempt.attemptCount = attempt.attemptCount + 1 := by
    unfold maxDeliveryAttempts at again
    simp only [PublishAttempt.incrementAttempt]
    omega
  have spares : ∀ other, other ≠ request →
      Spares other [.returned request false, .attempted request] := by
    intro other different
    simp [Spares, different]
  have others : ∀ other ∈ self.flying.eraseIdx index ++ (self.buffered ++
      events.flatMap emittedRequests),
      Spares other [.returned request false, .attempted request] := by
    intro other member
    apply spares
    rintro rfl
    rw [← List.append_assoc] at member
    exact chosen.others member
  obtain ⟨buffered, emitted⟩ := conserved.keep fun other member =>
    others other (List.mem_append_right _ member)
  constructor
  · simpa [List.filterMap_append, List.filterMap_cons, receivedPublish] using conserved.numbered
  · refine List.rel_append (flying_keep chosen.rest fun other member => ?_) (.cons ?_ .nil)
    · exact others other (List.mem_append_left _ member)
    · constructor
      · exact received_append chosen.flying.received _
      · rw [count]
        simp [List.count_append, attempted]
      · rw [count]
        simp [List.count_append]
        omega
      · simp [pending]
      · rw [count]
        exact again
  · exact buffered
  · exact conserved.room
  · intro outcome requests member
    exact emitted (by simpa using member)
  · have silent : (events ++ [Event.returned request false, Event.attempted request]).flatMap
        emittedRequests = events.flatMap emittedRequests := by
      simp [emittedRequests]
    rw [silent]
    refine .trans ?_ chosen.once
    rw [List.perm_iff_count]
    intro other
    simp only [List.count_append, List.count_cons, List.count_nil]
    omega
  · apply conserved.explained
    intro before other after split
    rcases split_pair split with ⟨_, same⟩ | ⟨rfl, same⟩
    · cases same
    · obtain rfl := Event.attempted.inj same
      refine ⟨?_, by simp [pending]⟩
      simp [List.count_append]
      omega
  · intro other above
    have bound := chosen.bound
    have later : self.requests ≤ other := above
    exact (conserved.fresh other later).append (spares other (by omega))

/-- The buffer is flushed. -/
theorem Conserved.flush (conserved : Conserved events self)
    (some : self.engine.completedBatch ≠ []) :
    Conserved (events ++ [.emitted (.batch self.engine.completedBatch) self.buffered])
      { self with engine := { self.engine with completedBatch := [] }, buffered := [] } := by
  have emits : Emits [.emitted (.batch self.engine.completedBatch) self.buffered] := by
    simp [Emits]
  obtain ⟨buffered, emitted⟩ := conserved.keep fun other _ => emits.spares other
  constructor
  · simpa [List.filterMap_append, List.filterMap_cons, receivedPublish] using conserved.numbered
  · exact flying_keep conserved.flying fun other _ => emits.spares other
  · exact .nil
  · exact Nat.zero_lt_succ _
  · intro outcome requests member
    rcases List.mem_append.mp member with early | late
    · exact emitted early
    · cases List.mem_singleton.mp late
      exact .batch some (Nat.le_of_lt conserved.room) buffered
  · refine .trans ?_ conserved.once
    rw [List.perm_iff_count]
    intro other
    simp [List.count_append, emittedRequests]
    omega
  · apply conserved.explained
    intro before other after split
    obtain ⟨_, same⟩ := split_singleton split
    cases same
  · intro other above
    exact (conserved.fresh other above).append (emits.spares other)

theorem Conserved.step (conserved : Conserved events self) (step : self.Step out next) :
    Conserved (events ++ out) next := by
  cases step with
  | @receive publish => exact conserved.receive publish
  | retry numbered found again => exact conserved.retry (conserved.choose numbered found) again
  | @single index request attempt delivered numbered found user =>
      have chosen := conserved.choose numbered found
      have emits : Emits [.emitted (.single (.of delivered attempt.detailsRef.key)) [request]] := by
        simp [Emits]
      obtain ⟨settled, buffered⟩ := conserved.settle chosen emits delivered
      refine conserved.report chosen emits rfl rfl rfl buffered conserved.room ?_ ?_
      · intro outcome requests member
        cases List.mem_singleton.mp member
        rw [user] at settled
        exact .single settled
      · exact List.perm_append_singleton _ _
  | @buffer index request attempt delivered numbered found automated room =>
      have chosen := conserved.choose numbered found
      have emits : Emits [] := by simp [Emits]
      obtain ⟨settled, buffered⟩ := conserved.settle chosen emits delivered
      rw [automated] at settled
      refine conserved.report chosen emits rfl rfl rfl ?_ ?_ (by simp) ?_
      · exact List.rel_append buffered (.cons settled .nil)
      · simpa using room
      · simp
  | @fill index request attempt delivered numbered found automated =>
      have chosen := conserved.choose numbered found
      have emits : Emits [.emitted (.batch (self.engine.completedBatch ++
          [.of delivered attempt.detailsRef.key])) (self.buffered ++ [request])] := by
        simp [Emits]
      obtain ⟨settled, buffered⟩ := conserved.settle chosen emits delivered
      rw [automated] at settled
      refine conserved.report chosen emits rfl rfl rfl .nil (Nat.zero_lt_succ _) ?_ ?_
      · intro outcome requests member
        cases List.mem_singleton.mp member
        refine .batch (by simp) ?_ (List.rel_append buffered (.cons settled .nil))
        have room := conserved.room
        rw [List.length_append, List.length_singleton]
        omega
      · simp [emittedRequests]
  | flush some => exact conserved.flush some
  | idle => simpa using conserved

/-- Numbering an outcome leaves the engine as it is. -/
theorem follow_engine (engine : PublishEngine) (flying : List Nat)
    (outcomes : List PublishOutcome) :
    (self.follow request engine flying outcomes).1.engine = engine := by
  unfold follow
  split
  · rfl
  · rfl
  · split <;> rfl

/-- The numbers never hold up the engine. -/
theorem Conserved.complete_fires (conserved : Conserved events self) {engine : PublishEngine}
    {outcomes : List PublishOutcome}
    (returns : self.engine.complete index delivered = some (attempt, engine, outcomes)) :
    ∃ next out, self.step (.complete index delivered) = some (next, out) ∧
      next.engine = engine := by
  have bound : index < self.engine.inFlight.length := by
    by_contra beyond
    have none := List.getElem?_eq_none (Nat.le_of_not_lt beyond)
    simp [PublishEngine.complete, none] at returns
  rw [← conserved.flying.length_eq] at bound
  have numbered := List.getElem?_eq_getElem bound
  have fires : self.step (.complete index delivered) = some
      ((self.follow self.flying[index] engine (self.flying.eraseIdx index) outcomes).1,
        .returned self.flying[index] delivered ::
          (self.follow self.flying[index] engine (self.flying.eraseIdx index) outcomes).2) := by
    simp only [PublishLoop.step, numbered, returns]
  exact ⟨_, _, fires, follow_engine engine _ outcomes⟩

/-- No request is attempted too often. -/
theorem Conserved.attempts_le (conserved : Conserved events reached) (request : Nat) :
    events.count (.attempted request) ≤ maxDeliveryAttempts := by
  by_cases known : request < reached.requests
  · have member := conserved.once.mem_iff.mpr (List.mem_range.mpr known)
    rcases List.mem_append.mp member with waiting | done
    · rcases List.mem_append.mp waiting with flying | buffered
      · obtain ⟨attempt, flying⟩ := exists_of_forall₂ conserved.flying request flying
        rw [flying.attempted]
        exact flying.within
      · obtain ⟨result, settled⟩ := exists_of_forall₂ conserved.buffered request buffered
        exact settled.within
    · obtain ⟨event, happened, inside⟩ := List.mem_flatMap.mp done
      cases event with
      | emitted outcome requests =>
          cases conserved.emitted happened with
          | single settled =>
              obtain rfl := List.mem_singleton.mp inside
              exact settled.within
          | batch _ _ settled =>
              obtain ⟨result, settled⟩ := exists_of_forall₂ settled request inside
              exact settled.within
      | received | attempted | returned => cases inside
  · rw [List.count_eq_zero_of_not_mem (conserved.fresh request (Nat.le_of_not_lt known)).1]
    exact Nat.zero_le _

/-- The results an event emits. -/
def emittedResults : Event → List PublishResult
  | .emitted outcome _ => outcome.results
  | _ => []

/-- The key of a request. -/
def keyOf (events : List Event) (request : Nat) : Option Key :=
  (events.filterMap receivedPublish)[request]?.map fun publish => publish.detailsRef.key

theorem map_keyOf_of_settled {user : Bool} {requests : List Nat} {results : List PublishResult}
    (settled : List.Forall₂ (Settled user events) requests results) :
    requests.map (keyOf events) = results.map fun result => some result.intoInner := by
  induction settled with
  | nil => rfl
  | cons head _ ih =>
      obtain ⟨publish, received, _, named⟩ := head.received
      rw [List.map_cons, List.map_cons, ih, keyOf, received, ← named]
      rfl

theorem map_keyOf_of_flying {requests : List Nat} {attempts : List PublishAttempt}
    (flying : List.Forall₂ (Flying events) requests attempts) :
    requests.map (keyOf events) = attempts.map fun attempt => some attempt.detailsRef.key := by
  induction flying with
  | nil => rfl
  | cons head _ ih =>
      rw [List.map_cons, List.map_cons, ih, keyOf, head.received]
      rfl

/-- The results emitted name the keys of the requests they answer. -/
theorem Conserved.map_keyOf_emitted (conserved : Conserved events reached) (part : List Event)
    (inside : part ⊆ events) : (part.flatMap emittedRequests).map (keyOf events) =
      (part.flatMap emittedResults).map fun result => some result.intoInner := by
  induction part with
  | nil => rfl
  | cons event part ih =>
      obtain ⟨happened, rest⟩ := List.cons_subset.mp inside
      rw [List.flatMap_cons, List.flatMap_cons, List.map_append, List.map_append, ih rest]
      congr 1
      cases event with
      | emitted outcome requests =>
          cases conserved.emitted happened with
          | single settled => exact map_keyOf_of_settled (.cons settled .nil)
          | batch _ _ settled => exact map_keyOf_of_settled settled
      | received | attempted | returned => rfl

/-- The keys received are those in flight, those buffered and those emitted. -/
theorem Conserved.keys (conserved : Conserved events reached) :
    (reached.engine.inFlight.map (fun attempt => attempt.detailsRef.key) ++
        reached.engine.completedBatch.map SymmetricalResult.intoInner ++
        (events.flatMap emittedResults).map SymmetricalResult.intoInner).Perm
      ((events.filterMap receivedPublish).map fun publish => publish.detailsRef.key) := by
  have moved := conserved.once.map (keyOf events)
  have received : (List.range reached.requests).map (keyOf events) =
      (events.filterMap receivedPublish).map fun publish => some publish.detailsRef.key := by
    rw [conserved.numbered]
    apply List.ext_getElem
    · simp
    · intro place left right
      simp at left
      simp [keyOf, left]
  rw [List.map_append, List.map_append, map_keyOf_of_flying conserved.flying,
    map_keyOf_of_settled conserved.buffered, conserved.map_keyOf_emitted events (.refl _),
    received] at moved
  have injective : Function.Injective (some : Key → Option Key) := fun _ _ => Option.some.inj
  rw [← List.map_perm_map_iff injective]
  simpa [Function.comp_def] using moved

/-- Every request is in flight, buffered or emitted, in one place; it is attempted at most
`maxDeliveryAttempts` times and again only after a failure; a user request is emitted by itself
and an automated one in a batch, with the verdict of its last attempt. -/
theorem answered_once {actions : List Action}
    (run : machine.Run Machine.Every new actions events reached) :
    Conserved events reached ∧
      (∀ request, events.count (.attempted request) ≤ maxDeliveryAttempts) ∧
      (reached.engine.inFlight.map (fun attempt => attempt.detailsRef.key) ++
          reached.engine.completedBatch.map SymmetricalResult.intoInner ++
          (events.flatMap emittedResults).map SymmetricalResult.intoInner).Perm
        ((events.filterMap receivedPublish).map fun publish => publish.detailsRef.key) := by
  have conserved := run.history Conserved Conserved.start fun before _ fires =>
    before.step (step_cases fires)
  exact ⟨conserved, conserved.attempts_le, conserved.keys⟩

end PublishLoop

end

section

attribute [local instance] asciiPlatform

/-- The request of an acknowledgement. -/
def acknowledged (key : Key) (user : Bool) : Publish :=
  let details := ⟨key, buildUserStatus key .acknowledge "operator" 0⟩
  if user then .user details else .automated details

/-- A user request succeeds at its second attempt and an automated one never. -/
def twoRequests : List PublishLoop.Action :=
  [.receive (acknowledged pump true), .receive (acknowledged beam false), .complete 0 false,
   .complete 0 false, .complete 0 true, .complete 0 false, .tick]

theorem PublishLoop.answered_once_two : ∃ reached events,
    machine.Run Machine.Every new twoRequests events reached ∧
      .emitted (.single (.ok pump)) [0] ∈ events ∧ .emitted (.batch [.err beam]) [1] ∈ events ∧
      Conserved events reached := by
  obtain ⟨reached, events, run, check⟩ := run_of_check twoRequests
    (fun _ events => decide (.emitted (.single (.ok pump)) [0] ∈ events) &&
      decide (.emitted (.batch [.err beam]) [1] ∈ events)) (by decide)
  simp only [Bool.and_eq_true, decide_eq_true_eq] at check
  exact ⟨reached, events, run, check.1, check.2, (answered_once run).1⟩

end

end AcornAlarms
