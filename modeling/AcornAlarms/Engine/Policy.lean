import AcornAlarms.Model.UserAction

/-!
# Policy for automated updates and user actions
-/

namespace AcornAlarms

/-- Whether an automated transition is meaningful enough to publish. -/
def transitionAllowed (prev next : State) : Bool :=
  match prev, next with
  | .ok, .alarmed => true
  | .alarmed, .latched => true
  | .alarmed, .ok => true
  | .acknowledged, .ok => true
  | .acknowledged, .alarmed => true
  | .bypassed, _ => true
  | .unknown, _ => true
  | _, _ => false

/-- Whether the latest known status is a bypass. -/
def isBypassed (prev : Option Status) : Bool :=
  prev.any fun status => status.state.value = .bypassed

/-- Whether an automated status update should be published. -/
def shouldPublish (prev : Option Status) (alarm : Status) : Bool :=
  let nextState := alarm.state.value
  if isBypassed prev && (alarm.source.value = .epics && nextState ≠ .unbypassed) then
    false
  else
    prev.all fun prevStatus =>
      transitionAllowed prevStatus.state.value nextState ||
        prevStatus.severity.value ≠ alarm.severity.value

/-- Whether a user action is allowed from the latest known state. -/
def userActionAllowed (latestState : State) (latestWake : Option Timestamp) :
    UserAction → Bool
  | .acknowledge => latestState = .alarmed || latestState = .latched
  | .activate => latestState = .bypassed
  | .bypass userWake => latestState ≠ .bypassed || latestWake ≠ userWake

/-- Why an update is suppressed: by a bypass, or because neither the transition nor the severity
calls for it. -/
theorem suppressed_cases {prev : Option Status} {alarm : Status}
    (suppressed : shouldPublish prev alarm = false) :
    ∃ held, prev = some held ∧
      ((held.state.value = .bypassed ∧ alarm.source.value = .epics ∧
          alarm.state.value ≠ .unbypassed) ∨
        (transitionAllowed held.state.value alarm.state.value = false ∧
          held.severity.value = alarm.severity.value)) := by
  unfold shouldPublish at suppressed
  cases prev with
  | none => simp [isBypassed] at suppressed
  | some held =>
      refine ⟨held, rfl, ?_⟩
      by_cases bypass : held.state.value = .bypassed ∧ alarm.source.value = .epics ∧
          alarm.state.value ≠ .unbypassed
      · exact .inl bypass
      · simp only [isBypassed, Option.any_some, Bool.and_eq_true, decide_eq_true_eq, bypass,
          if_false, Option.all_some, Bool.or_eq_false_iff, decide_eq_false_iff_not,
          not_not] at suppressed
        exact .inr suppressed

/-- A bypass of an EPICS key suppresses every update but the one that ends it. -/
theorem shouldPublish_bypassed {held alarm : Status} (bypassed : held.state.value = .bypassed)
    (epics : alarm.source.value = .epics) (holds : alarm.state.value ≠ .unbypassed) :
    shouldPublish (some held) alarm = false := by
  simp [shouldPublish, isBypassed, bypassed, epics, holds]

/-- A state that suppresses a report of another state is not one a report can come from. -/
theorem transition_suppressed {prev next : State} (suppressed : transitionAllowed prev next = false)
    (reported : next = .ok ∨ next = .alarmed) :
    prev = next ∨ prev = .latched ∨ prev = .unbypassed := by
  rcases reported with rfl | rfl <;> cases prev <;> simp_all [transitionAllowed]

end AcornAlarms
