/-
A batch that the SQL cannot evaluate as a whole: the rows that fail on their own are found by
halving it, and set aside.
-/

import Mathlib.Algebra.GroupWithZero.Nat

namespace Ddi.Sql

inductive Error
  | evaluation (message : String)
  | transform (message : String)
  /-- Any other kind: of capacity, of I/O. -/
  | other (message : String)
  deriving DecidableEq

/-- Why one run of the SQL failed. -/
inductive Failure
  /-- A value could not be evaluated. -/
  | evaluation (text : String)
  /-- Anything else, never blamed on a row. -/
  | other (error : Error)
  deriving DecidableEq

/-- How a failed run is reported. -/
def EXECUTE : String := "transform_sql failed to execute"

-- Rows as they come in, rows as they go out, and what else a run reads or changes.
variable {α ρ σ : Type}

/-- What is left of the rows `lo..hi` from the batch on that starts at a row. -/
def sliceFrom (lo hi : Nat) : Nat → List (List α) → List (List α)
  | _, [] => []
  | start, batch :: rest =>
      let stop := start + batch.length
      let low := max lo start
      let high := min hi stop
      (if low < high then [(batch.drop (low - start)).take (high - low)] else []) ++
        if hi ≤ stop then [] else sliceFrom lo hi stop rest

/-- Rows `lo..hi`, counted across the batches. -/
def sliceRows (input : List (List α)) (lo hi : Nat) : List (List α) := sliceFrom lo hi 0 input

/-- What bisecting a batch found. -/
structure Bisected (ρ : Type) where
  /-- The output of every part that evaluated, in input order. -/
  output : List (List ρ)
  /-- Each row that failed on its own, with its error. -/
  failed : List (Nat × String)
  /-- How many runs it took. -/
  runs : Nat
  deriving DecidableEq

def Bisected.empty : Bisected ρ := { output := [], failed := [], runs := 0 }

/-- A bisection under way: what the runs have made of the world, and what they found. -/
structure Bisection (σ ρ : Type) where
  world : σ
  found : Bisected ρ

def tooMany (first : String) (maxRejects : Nat) : String :=
  s!"{first}. More than {maxRejects} rows of this batch cannot be evaluated; that " ++
    "many is more likely a model or upstream-schema problem than bad rows. Nothing was " ++
    "committed. Raise max_evaluation_rejects_per_batch to set them aside anyway."

section Walk

-- `run` evaluates the rows from one to before another.
variable (run : σ → Nat → Nat → σ × Except Failure (List (List ρ))) (maxRejects : Nat)
  (first : String)

/-- A range in two halves. When the left one evaluates, the right one must hold the failure. -/
def halves (walk : Nat → Nat → Bool → Bisection σ ρ →
      Option (Bisection σ ρ × Except Error Bool))
    (lo hi : Nat) (bisection : Bisection σ ρ) : Option (Bisection σ ρ × Except Error Bool) :=
  let mid := lo + (hi - lo) / 2
  (walk lo mid false bisection).bind fun left =>
    match left.2 with
    | .error error => some (left.1, .error error)
    | .ok whole =>
        (walk mid hi whole left.1).map fun right => (right.1, right.2.map fun _ => false)

/-- Rows `lo..hi` evaluated, splitting what fails, and whether they evaluated whole. The first
argument is fuel: as many steps as there are rows are enough. -/
def walk : Nat → Nat → Nat → Bool → Bisection σ ρ → Option (Bisection σ ρ × Except Error Bool)
  | 0, _, _, _, _ => none
  | fuel + 1, lo, hi, knownToFail, bisection =>
      if !knownToFail || hi - lo == 1 then
        let ran := run bisection.world lo hi
        let found := { bisection.found with runs := bisection.found.runs + 1 }
        match ran.2 with
        | .ok out =>
            some ({ world := ran.1, found := { found with output := found.output ++ out } },
              .ok true)
        | .error (.other error) => some ({ world := ran.1, found := found }, .error error)
        | .error (.evaluation text) =>
            if hi - lo == 1 then
              let found := { found with failed := found.failed ++ [(lo, text)] }
              if maxRejects < found.failed.length then
                some ({ world := ran.1, found := found },
                  .error (.evaluation (tooMany first maxRejects)))
              else some ({ world := ran.1, found := found }, .ok false)
            else halves (walk fuel) lo hi { world := ran.1, found := found }
      else halves (walk fuel) lo hi bisection

/-- The rows of `0..count` that fail on their own, given that all of them together fail. -/
def bisect (fuel count : Nat) (world : σ) : Option (σ × Except Error (Bisected ρ)) :=
  (walk run maxRejects first fuel 0 count true { world := world, found := .empty }).map
    fun ended => (ended.1.world, ended.2.map fun _ => ended.1.found)

end Walk

/-- Rows set aside, each with why. -/
structure Rejected (α : Type) where
  rows : List α
  reasons : List String
  deriving DecidableEq

/-- What was made of one batch. -/
structure Isolated (α ρ : Type) where
  output : List (List ρ)
  unevaluable : Option (Rejected α)
  /-- Runs after the first. -/
  reevaluations : Nat
  deriving DecidableEq

def aside (input : List (List α)) (found : Bisected ρ) : Isolated α ρ :=
  { output := found.output
    unevaluable :=
      if found.failed.isEmpty then none
      else some
        { rows := (found.failed.flatMap fun failed =>
            sliceRows input failed.1 (failed.1 + 1)).flatten
          reasons := found.failed.map fun failed =>
            s!"transform_sql could not evaluate this row: {failed.2}" }
    -- The empty batch, and every part.
    reevaluations := 1 + found.runs }

/-- The transform of a batch, with the rows that it cannot evaluate set aside. `lookups` is what
came of building the lookups' providers, `execute` one run. -/
def applyIsolating {ν : Type} (lookups : Except Error ν)
    (execute : ν → σ → List (List α) → σ × Except Failure (List (List ρ)))
    (crossRow : Option String) (fuel : Nat) (input : List (List α)) (maxRejects : Nat)
    (world : σ) : Option (σ × Except Error (Isolated α ρ)) :=
  if input.isEmpty then
    some (world, .ok { output := [], unevaluable := none, reevaluations := 0 })
  else
    match lookups with
    | .error error => some (world, .error error)
    | .ok lookups =>
        let whole := execute lookups world input
        match whole.2 with
        | .ok output => some (whole.1, .ok { output, unevaluable := none, reevaluations := 0 })
        | .error (.other error) => some (whole.1, .error error)
        | .error (.evaluation text) =>
            let first := s!"{EXECUTE}: {text}"
            if maxRejects = 0 then some (whole.1, .error (.evaluation first))
            else
              match crossRow with
              | some why => some (whole.1, .error (.evaluation
                  (s!"{first}. A row it cannot evaluate is set aside only when every output row " ++
                    s!"comes from one input row, and this transform is not row-local ({why}), so " ++
                    "it cannot be evaluated in parts.")))
              | none =>
                  -- A failure that no row causes shows on no rows at all.
                  let empty := execute lookups whole.1 [[]]
                  match empty.2 with
                  | .error (.evaluation _) => some (empty.1, .error (.transform
                      (s!"{first}. It fails on an empty batch too, so no row is to blame and " ++
                        "nothing was set aside.")))
                  | .error (.other error) => some (empty.1, .error error)
                  | .ok _ =>
                      (bisect (fun world lo hi => execute lookups world (sliceRows input lo hi))
                          maxRejects first fuel (input.map List.length).sum empty.1).map
                        fun ended => (ended.1, ended.2.map (aside input))

end Ddi.Sql
