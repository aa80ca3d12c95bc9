import AcornAlarms.Model.Key

/-!
# Publish requests, attempts and outcomes
-/

namespace AcornAlarms

/-- A result whose success and failure carry the same kind of value. -/
inductive SymmetricalResult (α : Type) where
  | ok (value : α)
  | err (value : α)
deriving DecidableEq

namespace SymmetricalResult

variable {α β : Type}

def innerRef : SymmetricalResult α → α
  | .ok value => value
  | .err value => value

def intoInner : SymmetricalResult α → α
  | .ok value => value
  | .err value => value

def map (f : α → β) : SymmetricalResult α → SymmetricalResult β
  | .ok value => .ok (f value)
  | .err value => .err (f value)

def isOk : SymmetricalResult α → Bool
  | .ok _ => true
  | .err _ => false

/-- The result with this value and this verdict. -/
def of (delivered : Bool) (value : α) : SymmetricalResult α :=
  if delivered then .ok value else .err value

@[simp] theorem isOk_of (delivered : Bool) (value : α) : (of delivered value).isOk = delivered := by
  cases delivered <;> rfl

@[simp] theorem intoInner_of (delivered : Bool) (value : α) :
    (of delivered value).intoInner = value := by
  cases delivered <;> rfl

@[simp] theorem of_isOk (result : SymmetricalResult α) :
    of result.isOk result.intoInner = result := by
  cases result <;> rfl

end SymmetricalResult

variable [Platform]

/-- What every publish request carries. -/
structure PublishDetails where
  key : Key
  status : Status
deriving DecidableEq

/-- A publish request, by origin. -/
inductive Publish where
  | automated (details : PublishDetails)
  | user (details : PublishDetails)
deriving DecidableEq

namespace Publish

def detailsRef : Publish → PublishDetails
  | .automated details => details
  | .user details => details

def intoDetails : Publish → PublishDetails
  | .automated details => details
  | .user details => details

def isUserInitiated : Publish → Bool
  | .automated _ => false
  | .user _ => true

end Publish

/-- A publish request with the number of the attempt under way. -/
structure PublishAttempt where
  request : Publish
  attemptCount : Nat
deriving DecidableEq

namespace PublishAttempt

/-- Attempt one of a request. -/
def new (request : Publish) : PublishAttempt := ⟨request, 1⟩

def detailsRef (attempt : PublishAttempt) : PublishDetails := attempt.request.detailsRef

/-- `u8::saturating_add(1)`. -/
def incrementAttempt (attempt : PublishAttempt) : PublishAttempt :=
  { attempt with attemptCount := min (attempt.attemptCount + 1) 255 }

end PublishAttempt

/-- The result of one request names the key that was published. -/
abbrev PublishResult := SymmetricalResult Key

/-- Results on their way back from the publish engine. -/
inductive PublishOutcome where
  | batch (results : List PublishResult)
  | single (result : PublishResult)
deriving DecidableEq

/-- The results an outcome carries, in order. -/
def PublishOutcome.results : PublishOutcome → List PublishResult
  | .batch results => results
  | .single result => [result]

end AcornAlarms
