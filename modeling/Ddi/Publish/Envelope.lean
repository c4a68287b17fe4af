/-
One message: the rows a batch produced under the model's SQL, and enough cursor
to place them. A breaker stops paying for payloads nobody receives, a send
answers with counts and never with an error, and a client applies a message,
passes it over or reads its baseline again.
-/

import Mathlib.Algebra.Group.Int.Defs
import Mathlib.Algebra.Group.Nat.Defs
import Mathlib.Tactic.Common

namespace Ddi.Publish

/-- Consecutive failures, and until when nothing is tried. -/
structure Breaker where
  threshold : Nat
  cooldownMillis : Nat
  consecutiveFailures : Nat := 0
  /-- Milliseconds since the publisher was opened; zero for a closed breaker. -/
  openUntilMillis : Nat := 0
  deriving DecidableEq

namespace Breaker

def isOpen (breaker : Breaker) (elapsedMillis : Nat) : Bool :=
  breaker.openUntilMillis != 0 && decide (elapsedMillis < breaker.openUntilMillis)

def recordSuccess (breaker : Breaker) : Breaker :=
  { breaker with consecutiveFailures := 0, openUntilMillis := 0 }

/-- Whether this failure opens the breaker, and the breaker after it. -/
def recordFailure (breaker : Breaker) (elapsedMillis : Nat) : Bool × Breaker :=
  let failures := (breaker.consecutiveFailures + 1) % 2 ^ 32
  let counted := { breaker with consecutiveFailures := failures }
  if 0 < breaker.threshold ∧ breaker.threshold ≤ failures then
    (true,
      { counted with openUntilMillis := min (elapsedMillis + breaker.cooldownMillis) (2 ^ 64 - 1) })
  else (false, counted)

end Breaker

def envelopeVersion : Nat := 1

structure Envelope (μ : Type) where
  ddi : Nat
  pipeline : String
  appId : String
  model : String
  group : String
  /-- The previous batch's last source version, absent for the first since start. -/
  prevSourceVersion : Option Nat
  fromSourceVersion : Nat
  sourceVersion : Nat
  targetVersion : Option Nat
  committedAt : String
  /-- `false` when the rows could not be carried: `rows` is then empty. -/
  complete : Bool
  rowCount : Nat
  rows : List μ

structure PublishStats where
  sent : Bool := false
  failed : Bool := false
  skipped : Bool := false
  truncated : Bool := false
  rows : Nat := 0
  bytes : Nat := 0
  deriving DecidableEq

structure Rendered (μ : Type) where
  rows : List μ
  rowCount : Nat
  complete : Bool

/-- What a publisher is opened with. -/
structure PublishModel (τ μ : Type) where
  pipeline : String
  appId : String
  model : String
  group : String
  /-- The publish SQL over the rows of a batch. -/
  transform : List τ → Except String (List μ)
  /-- Whether the rows serialise within the size cap. -/
  rowsFit : List μ → Bool
  /-- The length of a serialised envelope. -/
  encode : Envelope μ → Option Nat
  failureThreshold : Nat
  breakerCooldownMillis : Nat

/-- What becomes of a request. -/
inductive Reply
  | accepted
  | refused
  /-- The service accepted it, and its answer never came. -/
  | unanswered
  deriving DecidableEq

variable {τ μ : Type}

def PublishModel.breaker (model : PublishModel τ μ) : Breaker :=
  { threshold := model.failureThreshold, cooldownMillis := model.breakerCooldownMillis }

/-- Runs the publish SQL. A failing one counts into the breaker; rows that do not fit make a
payload without any. -/
def PublishModel.render (model : PublishModel τ μ) (breaker : Breaker) (elapsedMillis : Nat)
    (rows : List τ) : Option (Rendered μ) × Breaker :=
  match model.transform rows with
  | .error _ => (none, (breaker.recordFailure elapsedMillis).2)
  | .ok out =>
    (some
      (if model.rowsFit out then { rows := out, rowCount := out.length, complete := true }
        else { rows := [], rowCount := out.length, complete := false }), breaker)

/-- Sends what was rendered: the counts, what the service was left with, and the breaker. -/
def PublishModel.send (model : PublishModel τ μ) (breaker : Breaker)
    (pending : Option (Rendered μ)) (prevSourceVersion : Option Nat)
    (fromSourceVersion sourceVersion : Nat) (targetVersion : Option Nat) (committedAt : String)
    (elapsedMillis answeredMillis : Nat) (reply : Reply) :
    PublishStats × Option (Envelope μ) × Breaker :=
  match pending with
  | none =>
    if breaker.isOpen elapsedMillis then ({ skipped := true }, none, breaker)
    else ({ failed := true }, none, breaker)
  | some rendered =>
    let envelope : Envelope μ :=
      { ddi := envelopeVersion
        pipeline := model.pipeline
        appId := model.appId
        model := model.model
        group := model.group
        prevSourceVersion := prevSourceVersion
        fromSourceVersion := fromSourceVersion
        sourceVersion := sourceVersion
        targetVersion := targetVersion
        committedAt := committedAt
        complete := rendered.complete
        rowCount := rendered.rowCount
        rows := rendered.rows }
    match model.encode envelope with
    | none => ({ failed := true }, none, breaker)
    | some bytes =>
      let failed : PublishStats := { failed := true, rows := envelope.rowCount, bytes := bytes }
      match reply with
      | .accepted =>
        ({ sent := true, truncated := !envelope.complete, rows := envelope.rowCount,
           bytes := bytes }, some envelope, breaker.recordSuccess)
      | .refused => (failed, none, (breaker.recordFailure answeredMillis).2)
      | .unanswered => (failed, some envelope, (breaker.recordFailure answeredMillis).2)

/-! ### The client -/

section Send

variable {model : PublishModel τ μ} {breaker : Breaker} {pending : Option (Rendered μ)}
  {prevSourceVersion : Option Nat} {fromSourceVersion sourceVersion : Nat}
  {targetVersion : Option Nat} {committedAt : String} {elapsedMillis answeredMillis : Nat}
  {reply : Reply} {message : Envelope μ} {rows : List τ} {rendered : Rendered μ}

/-- What a rendered payload holds. -/
theorem PublishModel.render_some
    (some_payload : (model.render breaker elapsedMillis rows).1 = some rendered)
    (whole : rendered.complete = true) : model.transform rows = .ok rendered.rows := by
  unfold render at some_payload
  cases ran : model.transform rows with
  | error error =>
      rw [ran] at some_payload
      cases some_payload
  | ok out =>
      rw [ran] at some_payload
      cases fits : model.rowsFit out with
      | true =>
          simp only [fits, if_true] at some_payload
          cases some_payload
          rfl
      | false =>
          simp only [fits, Bool.false_eq_true, if_false] at some_payload
          cases some_payload
          cases whole

/-- Everything a message that left says. -/
structure Sent (model : PublishModel τ μ) (pending : Option (Rendered μ))
    (prevSourceVersion : Option Nat) (sourceVersion : Nat) (targetVersion : Option Nat)
    (message : Envelope μ) : Prop where
  payload : ∃ rendered, pending = some rendered ∧ message.complete = rendered.complete ∧
    message.rows = rendered.rows
  own : message.pipeline = model.pipeline ∧ message.appId = model.appId
  version : message.ddi = envelopeVersion
  prev : message.prevSourceVersion = prevSourceVersion
  through : message.sourceVersion = sourceVersion
  target : message.targetVersion = targetVersion

theorem PublishModel.send_some
    (left : (model.send breaker pending prevSourceVersion fromSourceVersion sourceVersion
      targetVersion committedAt elapsedMillis answeredMillis reply).2.1 = some message) :
    Sent model pending prevSourceVersion sourceVersion targetVersion message := by
  unfold send at left
  cases pending with
  | none =>
      simp only at left
      split at left
      · cases left
      · cases left
  | some rendered =>
      simp only at left
      split at left
      · cases left
      · cases reply with
        | accepted =>
            cases left
            exact ⟨⟨rendered, rfl, rfl, rfl⟩, ⟨rfl, rfl⟩, rfl, rfl, rfl, rfl⟩
        | refused => cases left
        | unanswered =>
            cases left
            exact ⟨⟨rendered, rfl, rfl, rfl⟩, ⟨rfl, rfl⟩, rfl, rfl, rfl, rfl⟩

end Send

end Ddi.Publish
