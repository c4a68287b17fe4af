/-
Bisecting a batch: what was kept and what failed are its rows in order, and where the runs judge
each row by itself the rows set aside are the bad ones, found in few runs.
-/

import Ddi.Transform.Sql
import Mathlib.Data.List.Basic
import Mathlib.Data.Nat.Log

namespace Ddi.Sql

variable {α ρ σ : Type}

/-! ### Slices -/

theorem sliceFrom_flatten (lo hi start : Nat) (input : List (List α)) :
    (sliceFrom lo hi start input).flatten =
      (input.flatten.take (hi - start)).drop (lo - start) := by
  induction input generalizing start with
  | nil => simp [sliceFrom]
  | cons batch rest inductionHypothesis =>
      have here : (if max lo start < min hi (start + batch.length) then
            [(batch.drop (max lo start - start)).take
              (min hi (start + batch.length) - max lo start)] else []).flatten =
          (batch.take (hi - start)).drop (lo - start) := by
        split
        · rw [List.flatten_singleton, List.drop_take]
          have skipped : max lo start - start = lo - start := by omega
          rw [skipped]
          apply List.take_eq_take_iff.mpr
          rw [List.length_drop]
          omega
        · symm
          apply List.drop_eq_nil_of_le
          rw [List.length_take]
          omega
      rw [sliceFrom, List.flatten_append, here, List.flatten_cons, List.take_append,
        List.drop_append, List.length_take]
      congr 1
      split
      · have none : hi - start - batch.length = 0 := by omega
        rw [none, List.take_zero, List.drop_nil, List.flatten_nil]
      · rw [inductionHypothesis]
        have left : hi - (start + batch.length) = hi - start - batch.length := by omega
        have skipped : lo - (start + batch.length) =
            lo - start - min (hi - start) batch.length := by omega
        rw [left, skipped]

/-- The rows of a slice are those of the batch. -/
theorem sliceRows_flatten (input : List (List α)) (lo hi : Nat) :
    (sliceRows input lo hi).flatten = (input.flatten.take hi).drop lo :=
  sliceFrom_flatten lo hi 0 input

/-! ### How a range is walked -/

section Walk

variable (run : σ → Nat → Nat → σ × Except Failure (List (List ρ))) (maxRejects : Nat)
  (first : String)

namespace Bisection

def kept (bisection : Bisection σ ρ) (world : σ) (out : List (List ρ)) : Bisection σ ρ :=
  { world
    found :=
      { bisection.found with
        output := bisection.found.output ++ out
        runs := bisection.found.runs + 1 } }

def ran (bisection : Bisection σ ρ) (world : σ) : Bisection σ ρ :=
  { world, found := { bisection.found with runs := bisection.found.runs + 1 } }

def blamed (bisection : Bisection σ ρ) (world : σ) (row : Nat) (text : String) : Bisection σ ρ :=
  { world
    found :=
      { bisection.found with
        failed := bisection.found.failed ++ [(row, text)]
        runs := bisection.found.runs + 1 } }

end Bisection

/-- A range is split when it failed as a whole, or is known to. -/
inductive Opened (lo hi : Nat) : Bool → Bisection σ ρ → Bisection σ ρ → Prop
  | known (start : Bisection σ ρ) : Opened lo hi true start start
  | failed (start : Bisection σ ρ) (world : σ) (text : String)
      (fails : run start.world lo hi = (world, .error (.evaluation text))) :
      Opened lo hi false start (start.ran world)

/-- What a range is walked from and to, one rule for each way through. -/
inductive Walk : Nat → Nat → Bool → Bisection σ ρ → Bisection σ ρ → Except Error Bool → Prop
  | whole (lo hi : Nat) (known : Bool) (start : Bisection σ ρ) (world : σ) (out : List (List ρ))
      (asked : known = false ∨ hi - lo = 1) (evaluates : run start.world lo hi = (world, .ok out)) :
      Walk lo hi known start (start.kept world out) (.ok true)
  | other (lo hi : Nat) (known : Bool) (start : Bisection σ ρ) (world : σ) (error : Error)
      (asked : known = false ∨ hi - lo = 1)
      (fails : run start.world lo hi = (world, .error (.other error))) :
      Walk lo hi known start (start.ran world) (.error error)
  | alone (lo hi : Nat) (known : Bool) (start : Bisection σ ρ) (world : σ) (text : String)
      (one : hi - lo = 1) (fails : run start.world lo hi = (world, .error (.evaluation text)))
      (within : start.found.failed.length + 1 ≤ maxRejects) :
      Walk lo hi known start (start.blamed world lo text) (.ok false)
  | past (lo hi : Nat) (known : Bool) (start : Bisection σ ρ) (world : σ) (text : String)
      (one : hi - lo = 1) (fails : run start.world lo hi = (world, .error (.evaluation text)))
      (past : maxRejects < start.found.failed.length + 1) :
      Walk lo hi known start (start.blamed world lo text)
        (.error (.evaluation (tooMany first maxRejects)))
  | left (lo hi : Nat) (known : Bool) (start split ended : Bisection σ ρ) (error : Error)
      (several : 2 ≤ hi - lo) (opened : Opened run lo hi known start split)
      (stops : Walk lo (lo + (hi - lo) / 2) false split ended (.error error)) :
      Walk lo hi known start ended (.error error)
  | both (lo hi : Nat) (known : Bool) (start split middle ended : Bisection σ ρ) (whole : Bool)
      (result : Except Error Bool) (several : 2 ≤ hi - lo)
      (opened : Opened run lo hi known start split)
      (left : Walk lo (lo + (hi - lo) / 2) false split middle (.ok whole))
      (right : Walk (lo + (hi - lo) / 2) hi whole middle ended result) :
      Walk lo hi known start ended (result.map fun _ => false)

/-- With as much fuel as there are rows, a range is walked to an end. -/
theorem walk_total (count : Nat) (lo hi : Nat) (known : Bool) (start : Bisection σ ρ)
    (inhabited : lo < hi) (counted : hi - lo ≤ count) :
    ∃ ended result, Walk run maxRejects first lo hi known start ended result ∧
      ∀ fuel, hi - lo ≤ fuel →
        walk run maxRejects first fuel lo hi known start = some (ended, result) := by
  induction count generalizing lo hi known start with
  | zero => omega
  | succ count inductionHypothesis =>
      have halved (split : Bisection σ ρ) (several : 2 ≤ hi - lo)
          (opened : Opened run lo hi known start split) :
          ∃ ended result, Walk run maxRejects first lo hi known start ended result ∧
            ∀ fuel, hi - lo ≤ fuel + 1 →
              halves (walk run maxRejects first fuel) lo hi split = some (ended, result) := by
        obtain ⟨middle, outcome, walkedLeft, left⟩ :=
          inductionHypothesis lo (lo + (hi - lo) / 2) false split (by omega) (by omega)
        cases outcome with
        | error error =>
            refine ⟨middle, .error error,
              .left lo hi known start split middle error several opened walkedLeft, ?_⟩
            intro fuel enough
            simp only [halves, left fuel (by omega), Option.bind_some]
        | ok whole =>
            obtain ⟨ended, result, walkedRight, right⟩ :=
              inductionHypothesis (lo + (hi - lo) / 2) hi whole middle (by omega) (by omega)
            refine ⟨ended, _,
              .both lo hi known start split middle ended whole result several opened walkedLeft
                walkedRight, ?_⟩
            intro fuel enough
            simp only [halves, left fuel (by omega), Option.bind_some, right fuel (by omega),
              Option.map_some]
      by_cases asked : known = false ∨ hi - lo = 1
      · have test : (!known || hi - lo == 1) = true := by simpa using asked
        cases evaluated : run start.world lo hi with
        | mk world outcome =>
            cases outcome with
            | ok out =>
                refine ⟨_, _, .whole lo hi known start world out asked evaluated, ?_⟩
                intro fuel enough
                cases fuel with
                | zero => omega
                | succ fuel =>
                    rw [walk, if_pos test]
                    simp only [evaluated]
                    rfl
            | error failure =>
                cases failure with
                | other error =>
                    refine ⟨_, _, .other lo hi known start world error asked evaluated, ?_⟩
                    intro fuel enough
                    cases fuel with
                    | zero => omega
                    | succ fuel =>
                        rw [walk, if_pos test]
                        simp only [evaluated]
                        rfl
                | evaluation text =>
                    by_cases one : hi - lo = 1
                    · by_cases within : start.found.failed.length + 1 ≤ maxRejects
                      · refine ⟨_, _, .alone lo hi known start world text one evaluated within, ?_⟩
                        intro fuel enough
                        cases fuel with
                        | zero => omega
                        | succ fuel =>
                            rw [walk, if_pos test]
                            simp only [evaluated, one, beq_self_eq_true, if_true,
                              List.length_append, List.length_singleton,
                              if_neg (Nat.not_lt.mpr within)]
                            rfl
                      · have beyond := Nat.lt_of_not_le within
                        refine ⟨_, _, .past lo hi known start world text one evaluated beyond, ?_⟩
                        intro fuel enough
                        cases fuel with
                        | zero => omega
                        | succ fuel =>
                            rw [walk, if_pos test]
                            simp only [evaluated, one, beq_self_eq_true, if_true,
                              List.length_append, List.length_singleton, if_pos beyond]
                            rfl
                    · have unknown : known = false := asked.resolve_right one
                      subst unknown
                      obtain ⟨ended, result, walked, same⟩ := halved _ (by omega)
                        (.failed start world text evaluated)
                      refine ⟨ended, result, walked, ?_⟩
                      intro fuel enough
                      cases fuel with
                      | zero => omega
                      | succ fuel =>
                          rw [walk, if_pos test]
                          simp only [evaluated, beq_eq_false_iff_ne.mpr one, Bool.false_eq_true,
                            if_false]
                          exact same fuel enough
      · have known' : known = true := by
          cases known with
          | false => exact (asked (Or.inl rfl)).elim
          | true => rfl
        have one : ¬hi - lo = 1 := fun one => asked (Or.inr one)
        subst known'
        obtain ⟨ended, result, walked, same⟩ := halved start (by omega) (.known start)
        refine ⟨ended, result, walked, ?_⟩
        intro fuel enough
        cases fuel with
        | zero => omega
        | succ fuel =>
            have test : ¬(!true || hi - lo == 1) = true := by simp [one]
            rw [walk, if_neg test]
            exact same fuel enough

/-! ### Every behaviour of the runs -/

/-- One run, with what came of it. -/
structure Call (ρ : Type) where
  lo : Nat
  hi : Nat
  result : Except Failure (List (List ρ))

/-- Runs one after the other, from a state of the world to another. -/
inductive Calls : σ → List (Call ρ) → σ → Prop
  | none (world : σ) : Calls world [] world
  | more (world : σ) (lo hi : Nat) (calls : List (Call ρ)) (ended : σ)
      (rest : Calls (run world lo hi).1 calls ended) :
      Calls world (⟨lo, hi, (run world lo hi).2⟩ :: calls) ended

variable {run}

theorem Calls.append {world middle ended : σ} {calls others : List (Call ρ)}
    (before : Calls run world calls middle) (after : Calls run middle others ended) :
    Calls run world (calls ++ others) ended := by
  induction before with
  | none world => exact after
  | more world lo hi calls middle _ inductionHypothesis =>
      exact .more world lo hi _ ended (inductionHypothesis after)

theorem Calls.one {world next : σ} {lo hi : Nat} {result : Except Failure (List (List ρ))}
    (ran : run world lo hi = (next, result)) : Calls run world [⟨lo, hi, result⟩] next := by
  have called := Calls.more world lo hi [] _ (Calls.none (run world lo hi).1)
  rw [ran] at called
  exact called

theorem Calls.result {world ended : σ} {calls : List (Call ρ)} (called : Calls run world calls ended)
    {call : Call ρ} (inside : call ∈ calls) :
    ∃ world, (run world call.lo call.hi).2 = call.result := by
  induction called with
  | none world => cases inside
  | more world lo hi calls ended _ inductionHypothesis =>
      cases inside with
      | head => exact ⟨world, rfl⟩
      | tail _ later => exact inductionHypothesis later

/-- A range whose output was kept, or a row that failed. -/
inductive Part (ρ : Type)
  | kept (lo hi : Nat) (output : List (List ρ))
  | failed (row : Nat) (text : String)

namespace Part

def rows : Part ρ → List Nat
  | .kept lo hi _ => List.range' lo (hi - lo)
  | .failed row _ => [row]

def output : Part ρ → List (List ρ)
  | .kept _ _ output => output
  | .failed _ _ => []

def failure : Part ρ → List (Nat × String)
  | .kept _ _ _ => []
  | .failed row text => [(row, text)]

/-- The run that a part is what came of: a row that failed, failed alone. -/
def call : Part ρ → Call ρ
  | .kept lo hi output => ⟨lo, hi, .ok output⟩
  | .failed row text => ⟨row, row + 1, .error (.evaluation text)⟩

theorem rows_call (part : Part ρ) :
    part.rows = List.range' part.call.lo (part.call.hi - part.call.lo) := by
  cases part with
  | kept lo hi output => rfl
  | failed row text =>
      have one : row + 1 - row = 1 := by omega
      simp only [rows, call, one, List.range'_one]

end Part

/-- Parts that are what some runs found: of a range, of the rows in order, added to what was found
before. -/
structure Parted (lo hi : Nat) (before after : Bisected ρ) (calls : List (Call ρ))
    (parts : List (Part ρ)) : Prop where
  rows : parts.flatMap Part.rows = List.range' lo (hi - lo)
  output : after.output = before.output ++ parts.flatMap Part.output
  failed : after.failed = before.failed ++ parts.flatMap Part.failure
  called : ∀ part ∈ parts, part.call ∈ calls ∧ part.call.lo < part.call.hi

theorem Parted.append {lo mid hi : Nat} {before middle after : Bisected ρ}
    {calls others : List (Call ρ)} {parts more : List (Part ρ)} (low : lo ≤ mid) (high : mid ≤ hi)
    (left : Parted lo mid before middle calls parts)
    (right : Parted mid hi middle after others more) :
    Parted lo hi before after (calls ++ others) (parts ++ more) where
  rows := by
    rw [List.flatMap_append, left.rows, right.rows]
    have joined := @List.range'_append lo (mid - lo) (hi - mid) 1
    have start : lo + 1 * (mid - lo) = mid := by omega
    have length : mid - lo + (hi - mid) = hi - lo := by omega
    rw [start, length] at joined
    exact joined
  output := by rw [right.output, left.output, List.flatMap_append, List.append_assoc]
  failed := by rw [right.failed, left.failed, List.flatMap_append, List.append_assoc]
  called := by
    intro part inside
    rcases List.mem_append.mp inside with early | late
    · exact ⟨List.mem_append_left _ (left.called part early).1, (left.called part early).2⟩
    · exact ⟨List.mem_append_right _ (right.called part late).1, (right.called part late).2⟩

theorem half_bounds {lo hi : Nat} (several : 2 ≤ hi - lo) :
    lo < lo + (hi - lo) / 2 ∧ lo + (hi - lo) / 2 < hi := by
  omega

theorem Opened.calls {lo hi : Nat} {known : Bool} {start split : Bisection σ ρ}
    (opened : Opened run lo hi known start split) :
    ∃ calls, Calls run start.world calls split.world ∧
      split.found.runs = start.found.runs + calls.length ∧
      split.found.output = start.found.output ∧ split.found.failed = start.found.failed := by
  cases opened with
  | known start => exact ⟨[], .none _, rfl, rfl, rfl⟩
  | failed start world text fails => exact ⟨_, .one fails, rfl, rfl, rfl⟩

variable {maxRejects} {first}

/-- What was kept and what failed are the rows of the range in order, each as some run of it or of
it alone. -/
theorem Walk.parts {lo hi : Nat} {known : Bool} {start ended : Bisection σ ρ}
    {result : Except Error Bool} (walked : Walk run maxRejects first lo hi known start ended result)
    (inhabited : lo < hi) :
    ∃ calls, Calls run start.world calls ended.world ∧
      ended.found.runs = start.found.runs + calls.length ∧
      ∀ whole, result = .ok whole → ∃ parts, Parted lo hi start.found ended.found calls parts := by
  induction walked with
  | whole lo hi known start world out asked evaluates =>
      refine ⟨_, .one evaluates, rfl, fun whole _ => ⟨[.kept lo hi out], ?_⟩⟩
      exact
        { rows := by simp [Part.rows]
          output := by simp [Part.output, Bisection.kept]
          failed := by simp [Part.failure, Bisection.kept]
          called := by
            intro part inside
            rw [List.mem_singleton.mp inside]
            exact ⟨List.mem_singleton_self _, inhabited⟩ }
  | other lo hi known start world error asked fails =>
      exact ⟨_, .one fails, rfl, fun whole same => by cases same⟩
  | alone lo hi known start world text one fails within =>
      have next : hi = lo + 1 := by omega
      subst next
      refine ⟨_, .one fails, rfl, fun whole _ => ⟨[.failed lo text], ?_⟩⟩
      exact
        { rows := by simp [Part.rows]
          output := by simp [Part.output, Bisection.blamed]
          failed := by simp [Part.failure, Bisection.blamed]
          called := by
            intro part inside
            rw [List.mem_singleton.mp inside]
            exact ⟨List.mem_singleton_self _, inhabited⟩ }
  | past lo hi known start world text one fails past =>
      exact ⟨_, .one fails, rfl, fun whole same => by cases same⟩
  | left lo hi known start split ended error several opened stops inductionHypothesis =>
      obtain ⟨low, _⟩ := half_bounds several
      obtain ⟨before, split_calls, runs, _, _⟩ := opened.calls
      obtain ⟨calls, called, counted, _⟩ := inductionHypothesis low
      refine ⟨before ++ calls, split_calls.append called, ?_, fun whole same => by cases same⟩
      rw [counted, runs, List.length_append, Nat.add_assoc]
  | both lo hi known start split middle ended whole result several opened left right
      inductionHypothesisLeft inductionHypothesisRight =>
      obtain ⟨low, high⟩ := half_bounds several
      obtain ⟨before, split_calls, runs, output, failed⟩ := opened.calls
      obtain ⟨calls, called, counted, partedLeft⟩ := inductionHypothesisLeft low
      obtain ⟨others, called', counted', partedRight⟩ := inductionHypothesisRight high
      refine ⟨before ++ (calls ++ others), split_calls.append (called.append called'), ?_, ?_⟩
      · rw [counted', counted, runs, List.length_append, List.length_append]
        omega
      · intro final same
        cases result with
        | error error => cases same
        | ok finished =>
            obtain ⟨parts, leftParts⟩ := partedLeft whole rfl
            obtain ⟨more, rightParts⟩ := partedRight finished rfl
            have joined := leftParts.append low.le high.le rightParts
            refine ⟨parts ++ more, ?_⟩
            exact
              { rows := joined.rows
                output := by rw [← output]; exact joined.output
                failed := by rw [← failed]; exact joined.failed
                called := fun part inside =>
                  ⟨List.mem_append_right _ (joined.called part inside).1,
                    (joined.called part inside).2⟩ }

/-! ### Runs that judge each row by itself -/

theorem clog_halves {lo hi : Nat} (several : 2 ≤ hi - lo) :
    Nat.clog 2 (lo + (hi - lo) / 2 - lo) + 1 ≤ Nat.clog 2 (hi - lo) ∧
      Nat.clog 2 (hi - (lo + (hi - lo) / 2)) + 1 ≤ Nat.clog 2 (hi - lo) := by
  have step := Nat.clog_of_two_le (le_refl 2) several
  rw [step]
  constructor
  · exact Nat.succ_le_succ (Nat.clog_mono_right 2 (by omega))
  · exact Nat.succ_le_succ (Nat.clog_mono_right 2 (by omega))

theorem level_le (part : Nat) {levels level : Nat} (deeper : level + 1 ≤ levels) :
    part * level + part ≤ part * levels := by
  rw [← Nat.mul_succ]
  exact Nat.mul_le_mul_left part deeper

/-- A range fails exactly where it holds a bad row, and the outputs of rows are put together. -/
structure RowLocal (run : σ → Nat → Nat → σ × Except Failure (List (List ρ))) (count : Nat)
    (bad : Nat → Bool) (out : Nat → List ρ) : Prop where
  fails : ∀ world lo hi, lo < hi → hi ≤ count → (∃ row ∈ List.range' lo (hi - lo), bad row = true) →
    ∃ text, (run world lo hi).2 = .error (.evaluation text)
  evaluates : ∀ world lo hi, lo < hi → hi ≤ count →
    (∀ row ∈ List.range' lo (hi - lo), bad row = false) →
    ∃ batches, (run world lo hi).2 = .ok batches ∧
      batches.flatten = (List.range' lo (hi - lo)).flatMap out

/-- How many rows of a range are bad. -/
def bads (bad : Nat → Bool) (lo hi : Nat) : Nat := (List.range' lo (hi - lo)).countP bad

theorem bads_halves (bad : Nat → Bool) {lo mid hi : Nat} (low : lo ≤ mid) (high : mid ≤ hi) :
    bads bad lo hi = bads bad lo mid + bads bad mid hi := by
  have joined := @List.range'_append lo (mid - lo) (hi - mid) 1
  have start : lo + 1 * (mid - lo) = mid := by omega
  have length : mid - lo + (hi - mid) = hi - lo := by omega
  rw [start, length] at joined
  unfold bads
  rw [← joined, List.countP_append]

theorem bads_le (bad : Nat → Bool) (lo hi : Nat) : bads bad lo hi ≤ hi - lo := by
  have below : (List.range' lo (hi - lo)).countP bad ≤ (List.range' lo (hi - lo)).length :=
    List.countP_le_length
  rwa [List.length_range'] at below

section Local

variable {count : Nat} {bad : Nat → Bool} {out : Nat → List ρ}
  (judges : RowLocal run count bad out)

include judges

theorem RowLocal.failed {world next : σ} {lo hi : Nat} {failure : Failure} (inhabited : lo < hi)
    (inside : hi ≤ count) (ran : run world lo hi = (next, .error failure)) :
    (∃ text, failure = .evaluation text) ∧ 0 < bads bad lo hi := by
  by_cases blamed : ∃ row ∈ List.range' lo (hi - lo), bad row = true
  · obtain ⟨text, same⟩ := judges.fails world lo hi inhabited inside blamed
    rw [ran] at same
    exact ⟨⟨text, Except.error.inj same⟩, List.countP_pos_iff.mpr blamed⟩
  · have good : ∀ row ∈ List.range' lo (hi - lo), bad row = false := by
      intro row among
      cases judged : bad row with
      | false => rfl
      | true => exact (blamed ⟨row, among, judged⟩).elim
    obtain ⟨batches, same, _⟩ := judges.evaluates world lo hi inhabited inside good
    rw [ran] at same
    cases same

theorem RowLocal.evaluated {world next : σ} {lo hi : Nat} {batches : List (List ρ)}
    (inhabited : lo < hi) (inside : hi ≤ count) (ran : run world lo hi = (next, .ok batches)) :
    (∀ row ∈ List.range' lo (hi - lo), bad row = false) ∧
      batches.flatten = (List.range' lo (hi - lo)).flatMap out := by
  by_cases blamed : ∃ row ∈ List.range' lo (hi - lo), bad row = true
  · obtain ⟨text, same⟩ := judges.fails world lo hi inhabited inside blamed
    rw [ran] at same
    cases same
  · have good : ∀ row ∈ List.range' lo (hi - lo), bad row = false := by
      intro row among
      cases judged : bad row with
      | false => rfl
      | true => exact (blamed ⟨row, among, judged⟩).elim
    obtain ⟨found, same, flat⟩ := judges.evaluates world lo hi inhabited inside good
    rw [ran] at same
    cases same
    exact ⟨good, flat⟩

theorem RowLocal.evaluated_none {world next : σ} {lo hi : Nat} {batches : List (List ρ)}
    (inhabited : lo < hi) (inside : hi ≤ count) (ran : run world lo hi = (next, .ok batches)) :
    bads bad lo hi = 0 := by
  have good := (judges.evaluated inhabited inside ran).1
  apply List.countP_eq_zero.mpr
  intro row among
  rw [good row among]
  exact Bool.false_ne_true

/-- A range that is walked to its end has as many failures as bad rows, and they fit under the cap;
otherwise they do not. -/
theorem Walk.judged {lo hi : Nat} {known : Bool} {start ended : Bisection σ ρ}
    {result : Except Error Bool} (walked : Walk run maxRejects first lo hi known start ended result)
    (inhabited : lo < hi) (inside : hi ≤ count)
    (within : start.found.failed.length ≤ maxRejects) :
    (∀ whole, result = .ok whole →
        ended.found.failed.length = start.found.failed.length + bads bad lo hi ∧
          ended.found.failed.length ≤ maxRejects) ∧
      ∀ error, result = .error error → maxRejects < start.found.failed.length + bads bad lo hi := by
  induction walked with
  | whole lo hi known start world out asked evaluates =>
      have none := judges.evaluated_none inhabited inside evaluates
      refine ⟨fun whole _ => ?_, fun error same => by cases same⟩
      rw [none]
      exact ⟨rfl, within⟩
  | other lo hi known start world error asked fails =>
      obtain ⟨⟨text, same⟩, _⟩ := judges.failed inhabited inside fails
      cases same
  | alone lo hi known start world text one fails below =>
      have some := (judges.failed inhabited inside fails).2
      have most := bads_le bad lo hi
      refine ⟨fun whole _ => ?_, fun error same => by cases same⟩
      simp only [Bisection.blamed, List.length_append, List.length_singleton]
      omega
  | past lo hi known start world text one fails past =>
      have some := (judges.failed inhabited inside fails).2
      constructor
      · intro whole same
        cases same
      · intro _ _
        omega
  | left lo hi known start split ended error several opened stops inductionHypothesis =>
      obtain ⟨low, high⟩ := half_bounds several
      obtain ⟨_, _, _, _, failed⟩ := opened.calls
      rw [← failed] at within ⊢
      have past := (inductionHypothesis low (high.le.trans inside) within).2 error rfl
      have halves := bads_halves bad low.le high.le
      constructor
      · intro whole same
        cases same
      · intro _ _
        omega
  | both lo hi known start split middle ended whole result several opened left right
      inductionHypothesisLeft inductionHypothesisRight =>
      obtain ⟨low, high⟩ := half_bounds several
      obtain ⟨_, _, _, _, failed⟩ := opened.calls
      rw [← failed] at within ⊢
      have first := (inductionHypothesisLeft low (high.le.trans inside) within).1 whole rfl
      have second := inductionHypothesisRight high inside first.2
      have halves := bads_halves bad low.le high.le
      cases result with
      | error error =>
          have past := second.2 error rfl
          constructor
          · intro whole same
            cases same
          · intro _ _
            omega
      | ok finished =>
          have done := second.1 finished rfl
          constructor
          · intro _ _
            exact ⟨by omega, done.2⟩
          · intro error same
            cases same

/-- A range that no one knew to fail evaluates whole exactly where it holds no bad row. -/
theorem Walk.whole_iff {lo hi : Nat} {start ended : Bisection σ ρ} {whole : Bool}
    (walked : Walk run maxRejects first lo hi false start ended (.ok whole)) (inhabited : lo < hi)
    (inside : hi ≤ count) : whole = true ↔ bads bad lo hi = 0 := by
  generalize isFalse : false = known at walked
  generalize isOk : Except.ok whole = result at walked
  cases walked with
  | whole _ _ _ _ world out asked evaluates =>
      cases isOk
      exact iff_of_true rfl (judges.evaluated_none inhabited inside evaluates)
  | other _ _ _ _ world error asked fails => cases isOk
  | alone _ _ _ _ world text one fails below =>
      cases isOk
      have some := (judges.failed inhabited inside fails).2
      exact iff_of_false Bool.false_ne_true some.ne'
  | past _ _ _ _ world text one fails past => cases isOk
  | left _ _ _ _ split _ error several opened stops => cases isOk
  | both _ _ _ _ split middle _ finished result several opened left right =>
      cases result with
      | error error => cases isOk
      | ok finished =>
          cases isOk
          cases opened with
          | known => cases isFalse
          | failed _ world text fails =>
              have some := (judges.failed inhabited inside fails).2
              exact iff_of_false Bool.false_ne_true some.ne'

/-- What a range costs at most besides two runs a level for each bad row: a run of its own, unless
it is split at once. -/
def ownRun (known : Bool) (lo hi : Nat) : Nat := if known = true ∧ hi - lo ≠ 1 then 0 else 1

omit judges in
theorem ownRun_le (known : Bool) (lo hi : Nat) : ownRun known lo hi ≤ 1 := by
  unfold ownRun
  split <;> omega

omit judges in
theorem Opened.runs {lo hi : Nat} {known : Bool} {start split : Bisection σ ρ}
    (opened : Opened run lo hi known start split) (several : 2 ≤ hi - lo) :
    split.found.runs = start.found.runs + ownRun known lo hi := by
  cases opened with
  | known start =>
      have away : hi - lo ≠ 1 := by omega
      rw [ownRun, if_pos ⟨rfl, away⟩, Nat.add_zero]
  | failed start world text fails => rfl

theorem Opened.some {lo hi : Nat} {known : Bool} {start split : Bisection σ ρ}
    (opened : Opened run lo hi known start split) (inhabited : lo < hi) (inside : hi ≤ count)
    (suspected : known = false ∨ 0 < bads bad lo hi) : 0 < bads bad lo hi := by
  cases opened with
  | known start => exact suspected.resolve_left (Ne.symm Bool.false_ne_true)
  | failed start world text fails => exact (judges.failed inhabited inside fails).2

/-- Each bad row costs two runs a level at most. -/
theorem Walk.runs_le {lo hi : Nat} {known : Bool} {start ended : Bisection σ ρ}
    {result : Except Error Bool} (walked : Walk run maxRejects first lo hi known start ended result)
    (inhabited : lo < hi) (inside : hi ≤ count)
    (suspected : known = false ∨ 0 < bads bad lo hi) :
    ended.found.runs ≤
      start.found.runs + ownRun known lo hi + 2 * (bads bad lo hi * Nat.clog 2 (hi - lo)) := by
  have ran {lo hi : Nat} {known : Bool} (asked : known = false ∨ hi - lo = 1) :
      ownRun known lo hi = 1 := by
    unfold ownRun
    rw [if_neg]
    intro both
    rcases asked with unknown | one
    · rw [unknown] at both
      exact Bool.false_ne_true both.1
    · exact both.2 one
  induction walked with
  | whole lo hi known start world out asked evaluates =>
      rw [ran asked]
      exact Nat.le_add_right _ _
  | other lo hi known start world error asked fails =>
      rw [ran asked]
      exact Nat.le_add_right _ _
  | alone lo hi known start world text one fails below =>
      rw [ran (Or.inr one)]
      exact Nat.le_add_right _ _
  | past lo hi known start world text one fails past =>
      rw [ran (Or.inr one)]
      exact Nat.le_add_right _ _
  | left lo hi known start split ended error several opened stops inductionHypothesis =>
      obtain ⟨low, high⟩ := half_bounds several
      have some := opened.some judges inhabited inside suspected
      have opening := opened.runs several
      have spent := inductionHypothesis low (high.le.trans inside) (Or.inl rfl)
      have halves := bads_halves bad low.le high.le
      have own := ownRun_le false lo (lo + (hi - lo) / 2)
      have levels := level_le (bads bad lo (lo + (hi - lo) / 2)) (clog_halves several).1
      have levels' := level_le (bads bad (lo + (hi - lo) / 2) hi) (clog_halves several).2
      rw [halves, Nat.add_mul]
      omega
  | both lo hi known start split middle ended whole result several opened left right
      inductionHypothesisLeft inductionHypothesisRight =>
      obtain ⟨low, high⟩ := half_bounds several
      have some := opened.some judges inhabited inside suspected
      have opening := opened.runs several
      have halves := bads_halves bad low.le high.le
      have suspected' : whole = false ∨ 0 < bads bad (lo + (hi - lo) / 2) hi := by
        cases whole with
        | false => exact Or.inl rfl
        | true =>
            have none := (left.whole_iff judges low (high.le.trans inside)).mp rfl
            right
            omega
      have spent := inductionHypothesisLeft low (high.le.trans inside) (Or.inl rfl)
      have spent' := inductionHypothesisRight high inside suspected'
      have own := ownRun_le false lo (lo + (hi - lo) / 2)
      have own' := ownRun_le whole (lo + (hi - lo) / 2) hi
      have levels := level_le (bads bad lo (lo + (hi - lo) / 2)) (clog_halves several).1
      have levels' := level_le (bads bad (lo + (hi - lo) / 2) hi) (clog_halves several).2
      rw [halves, Nat.add_mul]
      omega

/-- A part holds only bad rows that failed, or only good ones. -/
theorem RowLocal.part {part : Part ρ} {world : σ} (inhabited : part.call.lo < part.call.hi)
    (inside : part.call.hi ≤ count)
    (ran : (run world part.call.lo part.call.hi).2 = part.call.result) :
    part.failure.map Prod.fst = part.rows.filter bad ∧
      part.output.flatten = (part.rows.filter fun row => !bad row).flatMap out := by
  have ran' : run world part.call.lo part.call.hi =
      ((run world part.call.lo part.call.hi).1, part.call.result) := by rw [← ran]
  cases part with
  | kept lo hi output =>
      obtain ⟨good, flat⟩ := judges.evaluated inhabited inside ran'
      have none : (List.range' lo (hi - lo)).filter bad = [] := by
        apply List.filter_eq_nil_iff.mpr
        intro row among
        rw [good row among]
        exact Bool.false_ne_true
      have all : (List.range' lo (hi - lo)).filter (fun row => !bad row) =
          List.range' lo (hi - lo) := by
        apply List.filter_eq_self.mpr
        intro row among
        rw [good row among]
        rfl
      simp only [Part.failure, Part.rows, Part.output, none, all, List.map_nil, true_and]
      exact flat
  | failed row text =>
      have some := (judges.failed inhabited inside ran').2
      have one : row + 1 - row = 1 := by omega
      have blamed : bad row = true := by
        obtain ⟨own, among, judged⟩ := List.countP_pos_iff.mp some
        simp only [Part.call, one, List.range'_one, List.mem_singleton] at among
        rwa [among] at judged
      simp [Part.failure, Part.rows, Part.output, blamed]

/-- The rows that failed are the bad ones, and what was kept is the output of the others. -/
theorem Parted.exact {world ended : σ} {calls : List (Call ρ)} (called : Calls run world calls ended)
    {lo hi : Nat} {after : Bisected ρ} {parts : List (Part ρ)}
    (parted : Parted lo hi .empty after calls parts) (inside : hi ≤ count) :
    after.failed.map Prod.fst = (List.range' lo (hi - lo)).filter bad ∧
      after.output.flatten =
        ((List.range' lo (hi - lo)).filter fun row => !bad row).flatMap out := by
  have each : ∀ part ∈ parts, part.failure.map Prod.fst = part.rows.filter bad ∧
      part.output.flatten = (part.rows.filter fun row => !bad row).flatMap out := by
    intro part among
    obtain ⟨asked, inhabited⟩ := parted.called part among
    obtain ⟨state, ran⟩ := called.result asked
    have last : part.call.hi - 1 ∈ List.range' lo (hi - lo) := by
      rw [← parted.rows]
      apply List.mem_flatMap.mpr
      refine ⟨part, among, ?_⟩
      rw [part.rows_call, List.mem_range'_1]
      omega
    rw [List.mem_range'_1] at last
    exact judges.part inhabited (by omega) ran
  rw [← parted.rows, parted.output, parted.failed]
  simp only [Bisected.empty, List.nil_append]
  clear parted
  induction parts with
  | nil => exact ⟨rfl, rfl⟩
  | cons part parts inductionHypothesis =>
      obtain ⟨failed, output⟩ := each part List.mem_cons_self
      obtain ⟨others, rest⟩ := inductionHypothesis fun part among =>
        each part (List.mem_cons_of_mem _ among)
      simp only [List.flatMap_cons, List.map_append, List.filter_append, List.flatMap_append,
        List.flatten_append, failed, output, others, rest, and_self]

end Local

end Walk

/-! ### Batches -/

/-- The SQL judges each row by itself: a batch fails exactly where it holds a bad row. -/
structure Rowwise (execute : σ → List (List α) → σ × Except Failure (List (List ρ)))
    (bad : α → Bool) (out : α → List ρ) : Prop where
  fails : ∀ world batches, (∃ row ∈ batches.flatten, bad row = true) →
    ∃ text, (execute world batches).2 = .error (.evaluation text)
  evaluates : ∀ world batches, (∀ row ∈ batches.flatten, bad row = false) →
    ∃ output, (execute world batches).2 = .ok output ∧
      output.flatten = batches.flatten.flatMap out

theorem slice_rows {rows : List α} (lo : Nat) {hi : Nat} (inside : hi ≤ rows.length) :
    (rows.take hi).drop lo = (List.range' lo (hi - lo)).filterMap fun row => rows[row]? := by
  generalize counted : hi - lo = count
  induction count generalizing lo with
  | zero =>
      apply List.drop_eq_nil_of_le
      rw [List.length_take]
      omega
  | succ count inductionHypothesis =>
      have here : lo < (rows.take hi).length := by
        rw [List.length_take]
        omega
      have held : rows[lo]? = some (rows.take hi)[lo] := by
        rw [List.getElem_take, List.getElem?_eq_getElem]
      rw [List.drop_eq_getElem_cons here, inductionHypothesis (lo + 1) (by omega), List.range'_succ,
        List.filterMap_cons, held]

section Batches

variable {execute : σ → List (List α) → σ × Except Failure (List (List ρ))} {bad : α → Bool}
  {out : α → List ρ}

theorem Rowwise.rowLocal (rowwise : Rowwise execute bad out) (input : List (List α)) :
    RowLocal (fun world lo hi => execute world (sliceRows input lo hi)) input.flatten.length
      (fun row => input.flatten[row]?.any bad) (fun row => input.flatten[row]?.elim [] out) where
  fails world lo hi inhabited inside blamed := by
    apply rowwise.fails
    rw [sliceRows_flatten, slice_rows lo inside]
    obtain ⟨row, among, judged⟩ := blamed
    cases held : input.flatten[row]? with
    | none =>
        rw [held] at judged
        cases judged
    | some own =>
        rw [held] at judged
        exact ⟨own, List.mem_filterMap.mpr ⟨row, among, held⟩, judged⟩
  evaluates world lo hi inhabited inside good := by
    have rows := slice_rows lo inside
    obtain ⟨output, evaluated, flat⟩ := rowwise.evaluates world (sliceRows input lo hi) (by
      rw [sliceRows_flatten, rows]
      intro own among
      obtain ⟨row, inside, held⟩ := List.mem_filterMap.mp among
      have judged := good row inside
      rwa [held] at judged)
    refine ⟨output, evaluated, ?_⟩
    rw [flat, sliceRows_flatten, rows]
    generalize List.range' lo (hi - lo) = indices
    induction indices with
    | nil => rfl
    | cons row indices inductionHypothesis =>
        rw [List.filterMap_cons, List.flatMap_cons, ← inductionHypothesis]
        cases input.flatten[row]? <;> rfl

theorem rows_indexed (rows : List α) :
    (List.range' 0 rows.length).filterMap (fun row => rows[row]?) = rows := by
  have all := slice_rows 0 (Nat.le_refl rows.length)
  rw [List.take_length, List.drop_zero] at all
  exact all.symm

/-- Rows picked by their place, or by what they are. -/
theorem rows_filter (rows : List α) (keep : Option α → Bool) (out : α → List ρ) :
    ((List.range' 0 rows.length).filter fun row => keep rows[row]?).flatMap
        (fun row => rows[row]?.elim [] out) =
      (rows.filter fun row => keep (some row)).flatMap out := by
  have each (indices : List Nat) : (∀ row ∈ indices, row < rows.length) →
      (indices.filter fun row => keep rows[row]?).flatMap (fun row => rows[row]?.elim [] out) =
        ((indices.filterMap fun row => rows[row]?).filter fun row => keep (some row)).flatMap out := by
    intro within
    induction indices with
    | nil => rfl
    | cons row indices inductionHypothesis =>
        have rest := inductionHypothesis fun row among => within row (List.mem_cons_of_mem _ among)
        have held := List.getElem?_eq_getElem (within row List.mem_cons_self)
        rw [List.filter_cons, List.filterMap_cons, held, List.filter_cons]
        have inside : row < rows.length := within row List.mem_cons_self
        cases keep (some rows[row])
        · simp only [Bool.false_eq_true, if_false, rest]
        · simp only [if_true, List.flatMap_cons, rest, held, Option.elim_some]
  have same := each (List.range' 0 rows.length) fun row among => by
    rw [List.mem_range'_1] at among
    omega
  rwa [rows_indexed] at same

theorem rows_bads (rows : List α) :
    bads (fun row => rows[row]?.any bad) 0 rows.length = rows.countP bad := by
  calc bads (fun row => rows[row]?.any bad) 0 rows.length
      = ((List.range' 0 rows.length).filterMap fun row => rows[row]?).countP bad := by
        rw [List.countP_filterMap, bads]
        congr 1
        funext row
        cases rows[row]? <;> rfl
    _ = rows.countP bad := by rw [rows_indexed]

end Batches

/-- Bisection ends, what it kept and what it blames are the rows in order, each as a run of just
it found, and where rows are judged one by one it finds the bad ones in few runs. -/
theorem bisect_isolates (execute : σ → List (List α) → σ × Except Failure (List (List ρ)))
    (input : List (List α)) (maxRejects : Nat) (first : String) (world : σ)
    (inhabited : 0 < (input.map List.length).sum) :
    let run := fun world lo hi => execute world (sliceRows input lo hi)
    let rows := input.flatten
    (∀ lo hi, (sliceRows input lo hi).flatten = (rows.take hi).drop lo) ∧
      ∃ ended result, (∀ fuel, rows.length ≤ fuel →
          walk run maxRejects first fuel 0 rows.length true { world := world, found := .empty } =
              some (ended, result) ∧
            bisect run maxRejects first fuel rows.length world =
              some (ended.world, result.map fun _ => ended.found)) ∧
        (∃ calls, Calls run world calls ended.world ∧ ended.found.runs = calls.length ∧
          ∀ whole, result = .ok whole →
            ∃ parts, Parted 0 rows.length .empty ended.found calls parts) ∧
        ∀ bad out, Rowwise execute bad out →
          (∀ whole, result = .ok whole →
            ended.found.failed.map Prod.fst =
                (List.range rows.length).filter (fun row => rows[row]?.any bad) ∧
              ended.found.output.flatten = (rows.filter fun row => !bad row).flatMap out) ∧
          ((∃ error, result = .error error) ↔ maxRejects < rows.countP bad) ∧
          (0 < rows.countP bad →
            ended.found.runs ≤ 2 * rows.countP bad * (Nat.clog 2 rows.length + 1)) := by
  intro run rows
  constructor
  · exact sliceRows_flatten input
  · have counted : rows.length = (input.map List.length).sum := List.length_flatten
    rw [← counted] at inhabited
    obtain ⟨ended, result, walked, same⟩ := walk_total run maxRejects first rows.length 0
      rows.length true { world := world, found := .empty } inhabited (Nat.sub_le _ _)
    obtain ⟨calls, called, runs, parted⟩ := walked.parts inhabited
    refine ⟨ended, result, ?_, ⟨calls, called, ?_, parted⟩, ?_⟩
    · intro fuel enough
      have ends := same fuel enough
      refine ⟨ends, ?_⟩
      rw [bisect, ends]
      rfl
    · rw [runs]
      exact Nat.zero_add _
    · intro bad out rowwise
      have judges := rowwise.rowLocal input
      have judged := walked.judged judges inhabited (Nat.le_refl _) (Nat.zero_le _)
      have bads : bads (fun row => rows[row]?.any bad) 0 rows.length = rows.countP bad :=
        rows_bads rows
      simp only [Bisected.empty, List.length_nil, Nat.zero_add] at judged
      rw [bads] at judged
      refine ⟨?_, ?_, ?_⟩
      · intro whole done
        obtain ⟨parts, stands⟩ := parted whole done
        obtain ⟨failed, output⟩ := stands.exact judges called (Nat.le_refl _)
        rw [List.range_eq_range', failed, output]
        exact ⟨rfl, rows_filter rows (fun held => !held.any bad) out⟩
      · constructor
        · intro stopped
          obtain ⟨error, stops⟩ := stopped
          exact judged.2 error stops
        · intro past
          cases result with
          | error error => exact ⟨error, rfl⟩
          | ok whole =>
              obtain ⟨failed, within⟩ := judged.1 whole rfl
              rw [failed] at within
              exact absurd past (Nat.not_lt.mpr within)
      · intro some
        have spent := walked.runs_le judges inhabited (Nat.le_refl _) (Or.inr (bads ▸ some))
        have own := ownRun_le true 0 rows.length
        rw [bads] at spent
        simp only [Bisected.empty, Nat.zero_add, Nat.sub_zero] at spent
        rw [Nat.mul_assoc, Nat.mul_succ]
        omega

/-- Digits of which none may be zero, each run counted. -/
def dividing (runs : Nat) (batches : List (List Nat)) :
    Nat × Except Failure (List (List Nat)) :=
  (runs + 1, if batches.flatten.any (· == 0) then .error (.evaluation "division by zero")
    else .ok batches)

theorem dividing_rowwise : Rowwise dividing (fun digit => digit == 0) (fun digit => [digit]) where
  fails runs batches blamed := by
    refine ⟨"division by zero", ?_⟩
    rw [dividing, if_pos (List.any_eq_true.mpr blamed)]
  evaluates runs batches good := by
    have none : ¬(batches.flatten.any (· == 0)) = true := by
      intro some
      obtain ⟨digit, among, zero⟩ := List.any_eq_true.mp some
      rw [good digit among] at zero
      cases zero
    refine ⟨batches, ?_, ?_⟩
    · rw [dividing, if_neg none]
    · exact (List.flatMap_singleton' batches.flatten).symm

theorem dividing_isolates :
    0 < ([[3, 0], [5]].map List.length).sum ∧
      ∃ ended result,
        walk (fun runs lo hi => dividing runs (sliceRows [[3, 0], [5]] lo hi)) 1 "" 3 0 3 true
            { world := 0, found := .empty } = some (ended, result) ∧
          ended.found.runs ≤ 2 * 1 * (Nat.clog 2 3 + 1) := by
  have isolates := (bisect_isolates dividing [[3, 0], [5]] 1 "" 0 (by decide)).2
  obtain ⟨ended, result, walked, _, rows⟩ := isolates
  have spent := (rows _ _ dividing_rowwise).2.2 (by decide)
  exact ⟨by decide, ended, result, (walked 3 (by decide)).1, spent⟩

/-! ### Rows set aside -/

theorem aside_rows (input : List (List α)) (bad : α → Bool) (found : Bisected ρ)
    (failed : found.failed.map Prod.fst =
      (List.range input.flatten.length).filter fun row => input.flatten[row]?.any bad) :
    (found.failed.flatMap fun failed => sliceRows input failed.1 (failed.1 + 1)).flatten =
      input.flatten.filter bad := by
  have one : ∀ row ∈ found.failed.map Prod.fst, (sliceRows input row (row + 1)).flatten =
      input.flatten[row]?.elim [] fun own => [own] := by
    intro row among
    rw [failed, List.mem_filter, List.mem_range] at among
    have held := List.getElem?_eq_getElem among.1
    have single : row + 1 - row = 1 := by omega
    rw [sliceRows_flatten, slice_rows row (Nat.succ_le_of_lt among.1), single, List.range'_one,
      List.filterMap_cons, held]
    rfl
  calc (found.failed.flatMap fun failed => sliceRows input failed.1 (failed.1 + 1)).flatten
      = (found.failed.map Prod.fst).flatMap fun row => (sliceRows input row (row + 1)).flatten := by
        rw [List.flatMap_map, List.flatMap_def, List.flatMap_def, List.flatten_flatten,
          List.map_map]
        rfl
    _ = (found.failed.map Prod.fst).flatMap fun row =>
          input.flatten[row]?.elim [] fun own => [own] := List.flatMap_congr one
    _ = input.flatten.filter bad := by
        rw [failed, List.range_eq_range', rows_filter input.flatten (fun held => held.any bad)]
        exact List.flatMap_singleton' (input.flatten.filter bad)

/-- A batch with bad rows, where each row is judged by itself: more than the cap are an error, and
otherwise the bad rows are set aside and the others' output is kept. -/
theorem applyIsolating_rowwise {ν : Type} (providers : ν)
    {execute : ν → σ → List (List α) → σ × Except Failure (List (List ρ))} {bad : α → Bool}
    {out : α → List ρ} (rowwise : Rowwise (execute providers) bad out) (input : List (List α))
    (blamed : 0 < input.flatten.countP bad) (maxRejects : Nat) (allowed : 0 < maxRejects)
    (world : σ) (fuel : Nat) (enough : input.flatten.length ≤ fuel) :
    ∃ ended result,
      applyIsolating (.ok providers) execute none fuel input maxRejects world =
          some (ended, result) ∧
        ((∃ error, result = .error error) ↔ maxRejects < input.flatten.countP bad) ∧
        ∀ isolated, result = .ok isolated →
          isolated.output.flatten =
              (input.flatten.filter fun row => !bad row).flatMap out ∧
            isolated.unevaluable.map Rejected.rows = some (input.flatten.filter bad) ∧
            isolated.reevaluations ≤ 1 +
              2 * input.flatten.countP bad * (Nat.clog 2 input.flatten.length + 1) := by
  have counted : input.flatten.length = (input.map List.length).sum := List.length_flatten
  have inhabited : 0 < (input.map List.length).sum := by
    rw [← counted]
    exact Nat.lt_of_lt_of_le blamed List.countP_le_length
  have batches : input.isEmpty = false := by
    cases input with
    | nil => cases blamed
    | cons batch rest => rfl
  obtain ⟨text, fails⟩ := rowwise.fails world input (List.countP_pos_iff.mp blamed)
  obtain ⟨empty, evaluates, _⟩ := rowwise.evaluates (execute providers world input).1 [[]]
    fun row among => by cases among
  obtain ⟨_, ended, result, walked, _, rows⟩ := bisect_isolates (execute providers) input
    maxRejects s!"{EXECUTE}: {text}" (execute providers (execute providers world input).1 [[]]).1
    inhabited
  obtain ⟨exact, past, spent⟩ := rows bad out rowwise
  have bisected := (walked fuel enough).2
  refine ⟨ended.world, (result.map fun _ => ended.found).map (aside input), ?_, ?_, ?_⟩
  · rw [applyIsolating, batches, if_neg Bool.false_ne_true]
    simp only [fails, if_neg allowed.ne', evaluates]
    rw [← counted, bisected]
    rfl
  · rw [← past]
    cases result with
    | error error => exact iff_of_true ⟨error, rfl⟩ ⟨error, rfl⟩
    | ok whole =>
        constructor
        · intro failed
          obtain ⟨error, same⟩ := failed
          cases same
        · intro failed
          obtain ⟨error, same⟩ := failed
          cases same
  · intro isolated same
    cases result with
    | error error => cases same
    | ok whole =>
        cases same
        obtain ⟨failed, output⟩ := exact whole rfl
        have some : ended.found.failed.isEmpty = false := by
          cases found : ended.found.failed with
          | cons row rest => rfl
          | nil =>
              have aside := aside_rows input bad ended.found failed
              rw [found] at aside
              rw [List.countP_eq_length_filter, ← aside] at blamed
              cases blamed
        refine ⟨output, ?_, ?_⟩
        · rw [aside, some, if_neg Bool.false_ne_true]
          exact congrArg Option.some (aside_rows input bad ended.found failed)
        · exact Nat.add_le_add_left (spent blamed) 1

end Ddi.Sql
