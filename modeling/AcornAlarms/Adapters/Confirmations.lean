import AcornAlarms.Adapters.Grpc

/-!
# Answers to operator requests

A request that offered all its updates waits for its one-shot channels. Their answers are
sorted into refused transitions and internal errors, and these decide the status of the
response.
-/

namespace AcornAlarms

open Library

/-- The `Debug` text of a state. -/
def State.debug : State → String
  | .unknown => "Unknown"
  | .ok => "Ok"
  | .alarmed => "Alarmed"
  | .latched => "Latched"
  | .acknowledged => "Acknowledged"
  | .bypassed => "Bypassed"
  | .unbypassed => "Unbypassed"

def buildGrpcResult (badRequests internalErrs : List String) : Except TonicStatus Unit :=
  if badRequests.isEmpty && internalErrs.isEmpty then .ok ()
  else if internalErrs.isEmpty then .error ⟨.invalidArgument, "; ".intercalate badRequests⟩
  else
    let badRequestMsg :=
      if badRequests.isEmpty then ""
      else "\n - \nAdditionally, some requests were malformed: " ++ "; ".intercalate badRequests
    .error ⟨.internal,
      "Failed processing requests: " ++ ";".intercalate internalErrs ++ badRequestMsg⟩

/-- A response is `Ok` only if every update was persisted, and blames the request only if no
update failed for another reason. -/
theorem buildGrpcResult_code (badRequests internalErrs : List String) :
    (buildGrpcResult badRequests internalErrs = .ok () ↔ badRequests = [] ∧ internalErrs = []) ∧
    ((∃ message, buildGrpcResult badRequests internalErrs = .error ⟨.invalidArgument, message⟩) ↔
      badRequests ≠ [] ∧ internalErrs = []) ∧
    ((∃ message, buildGrpcResult badRequests internalErrs = .error ⟨.internal, message⟩) ↔
      internalErrs ≠ []) := by
  cases badRequests <;> cases internalErrs <;> simp [buildGrpcResult]

section

variable [Platform]

/-- The `Display` text of a transition. -/
def StateTransition.toText (transition : StateTransition) : String :=
  "for " ++ transition.key.toText ++ " from " ++ transition.current.debug ++ " into " ++
    transition.requested.debug

/-- The `Display` text of an error. -/
def UpdateError.toText : UpdateError → String
  | .internal key =>
      "Internal error. The update for " ++ key.toText ++ " has not been persisted."
  | .stateNotAllowed transition => "Invalid state transition " ++ transition.toText ++ " requested."

/-- What a one-shot channel yields: the answer, or `none` when its sender was dropped. -/
abbrev Receipt := Option (Except UpdateError Unit)

/-- One round of the loop of `handle_confirmation`. -/
def sortReceipt : List String × List String → Key × Receipt → List String × List String
  | (badRequests, internalErrs), (key, result) =>
      match result with
      | none => (badRequests,
          internalErrs ++ ["State machine is down. Did not process " ++ key.toText ++ "."])
      | some (.error error) =>
          match error with
          | .internal _ => (badRequests, internalErrs ++ [error.toText])
          | .stateNotAllowed _ => (badRequests ++ [error.toText], internalErrs)
      | some (.ok ()) => (badRequests, internalErrs)

/-- The response of a request, from the key and the receipt of each of its updates. -/
def handleConfirmation (results : List (Key × Receipt)) : Except TonicStatus Unit :=
  let (badRequests, internalErrs) := results.foldl sortReceipt ([], [])
  buildGrpcResult badRequests internalErrs

/-- What a receipt adds to the refused transitions of a response. -/
def badRequest? : Key × Receipt → Option String
  | (_, some (.error (.stateNotAllowed transition))) =>
      some (UpdateError.stateNotAllowed transition).toText
  | _ => none

/-- What a receipt adds to the internal errors of a response. -/
def internalErr? : Key × Receipt → Option String
  | (key, none) => some ("State machine is down. Did not process " ++ key.toText ++ ".")
  | (_, some (.error (.internal lost))) => some (UpdateError.internal lost).toText
  | _ => none

/-- A round adds what its receipt adds. -/
theorem sortReceipt_eq (badRequests internalErrs : List String) (entry : Key × Receipt) :
    sortReceipt (badRequests, internalErrs) entry =
      (badRequests ++ (badRequest? entry).toList, internalErrs ++ (internalErr? entry).toList) := by
  obtain ⟨key, result⟩ := entry
  cases result with
  | none => simp [sortReceipt, badRequest?, internalErr?]
  | some answer =>
      cases answer with
      | ok => simp [sortReceipt, badRequest?, internalErr?]
      | error error => cases error <;> simp [sortReceipt, badRequest?, internalErr?]

/-- The answers are sorted in the order of the devices. -/
theorem handleConfirmation_eq (results : List (Key × Receipt)) :
    handleConfirmation results =
      buildGrpcResult (results.filterMap badRequest?) (results.filterMap internalErr?) := by
  suffices sorted : ∀ badRequests internalErrs,
      results.foldl sortReceipt (badRequests, internalErrs) =
        (badRequests ++ results.filterMap badRequest?,
          internalErrs ++ results.filterMap internalErr?) by
    rw [handleConfirmation, sorted]
    rfl
  induction results with
  | nil => simp
  | cons entry rest ih =>
      intro badRequests internalErrs
      rw [List.foldl_cons, sortReceipt_eq, ih, List.filterMap_cons, List.filterMap_cons]
      cases badRequest? entry <;> cases internalErr? entry <;> simp

/-- A receipt adds nothing exactly if it is `Ok`. -/
theorem receipt_silent_iff (entry : Key × Receipt) :
    badRequest? entry = none ∧ internalErr? entry = none ↔ entry.2 = some (.ok ()) := by
  obtain ⟨key, result⟩ := entry
  cases result with
  | none => simp [internalErr?]
  | some answer =>
      cases answer with
      | ok => simp [badRequest?, internalErr?]
      | error error => cases error <;> simp [badRequest?, internalErr?]

/-- The response is `Ok` exactly if every update was. -/
theorem handleConfirmation_ok (results : List (Key × Receipt)) :
    handleConfirmation results = .ok () ↔ ∀ entry ∈ results, entry.2 = some (.ok ()) := by
  rw [handleConfirmation_eq, (buildGrpcResult_code _ _).1, List.filterMap_eq_nil_iff,
    List.filterMap_eq_nil_iff]
  constructor
  · rintro ⟨bad, internal⟩ entry member
    exact (receipt_silent_iff entry).mp ⟨bad entry member, internal entry member⟩
  · intro each
    exact ⟨fun entry member => ((receipt_silent_iff entry).mpr (each entry member)).1,
      fun entry member => ((receipt_silent_iff entry).mpr (each entry member)).2⟩

end

end AcornAlarms
