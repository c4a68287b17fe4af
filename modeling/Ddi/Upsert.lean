/-
Upserting into the target: a batch is reduced to its newest row per key and
merged onto the rows the target holds, where a matched row is replaced only by a
newer one.

In one batch the newest row is found through a row encoding of the sequence
column and the tie-breakers. Against a stored row the same columns are compared
by an expression that spells the comparison out.
-/

import Ddi.Error
import Ddi.Lib.Assoc
import Ddi.Lib.RowCode

namespace Ddi

variable {V β : Type} [LinearOrder V] [LinearOrder β]

/-- One row of a batch or of the target, by column name. -/
abbrev Row (V : Type) := String → Option V

namespace Upsert

/-- The columns an upsert is configured with. -/
structure Columns where
  key : String
  sequence : String
  tiebreak : List String

/-- The sequence column first, then each tie-breaker in the order it was declared. -/
def Columns.order (columns : Columns) : List String := columns.sequence :: columns.tiebreak

/-- What a batch's columns are cast and encoded by. -/
structure Kernels (V β : Type) where
  /-- The cast of the key column to text: null for a value that has none. -/
  castToUtf8 : Except String (V → Option String)
  /-- The byte-comparable encoding of one column, for a type that can be ordered. -/
  sortField : String → Except String (V → List β)

/-! ### Collapsing -/

def nullCount (rows : List (Row V)) (column : String) : Nat :=
  rows.countP fun row => (row column).isNone

def nullKey (column : String) (nulls : Nat) : Error :=
  .schema <| s!"upsert key {column} contains {nulls} null(s). A row with no key can be neither "
    ++ "matched against the target nor safely inserted — every redelivery would append another "
    ++ "copy, because SQL does not consider two nulls equal."

def nullSequence (column : String) (nulls : Nat) : Error :=
  .schema <| s!"upsert sequence column {column} contains {nulls} null(s). It is what decides "
    ++ "whether an arriving row is newer than the one already stored, so a row without one can be "
    ++ "neither applied nor skipped safely."

def nullTiebreak (column sequence : String) (nulls : Nat) : Error :=
  .schema <| s!"upsert tie-breaker {column} contains {nulls} null(s). It decides which of two "
    ++ s!"rows sharing a {sequence} is the later one, and a null cannot be compared — the rows "
    ++ "would fall back to whichever the batch happened to carry last, which is the instability the "
    ++ "tie-breaker exists to remove."

def checkTiebreak (rows : List (Row V)) (sequence : String) : List String → Except Error Unit
  | [] => .ok ()
  | column :: rest =>
      if 0 < nullCount rows column then
        .error (nullTiebreak column sequence (nullCount rows column))
      else checkTiebreak rows sequence rest

/-- `RowConverter::new`: a field for each of the columns. -/
def rowConverter (kernels : Kernels V β) : List String → Except String (List (V → List β))
  | [] => .ok []
  | column :: rest =>
      match kernels.sortField column with
      | .error reason => .error reason
      | .ok code =>
          match rowConverter kernels rest with
          | .error reason => .error reason
          | .ok codes => .ok (code :: codes)

/-- The values a row is ordered by. -/
def rank (columns : Columns) (row : Row V) : List V := columns.order.filterMap row

def convertRow (codes : List (V → List β)) (columns : Columns) (row : Row V) : List β :=
  RowCode.encode codes (rank columns row)

/-- The text a null of the cast key column reads as is the empty one. -/
def keyText (utf8 : V → Option String) (columns : Columns) (row : Row V) : String :=
  ((row columns.key).bind utf8).getD ""

/-- The row of each text that no later one of the batch is at or past. -/
def newestLoop (encoded : Row V → List β) (text : Row V → String) :
    Nat → List (String × Nat × Row V) → List (Row V) → List (String × Nat × Row V)
  | _, newest, [] => newest
  | number, newest, row :: rest =>
      match newest.lookup (text row) with
      | some best =>
          if encoded row < encoded best.2 then
            newestLoop encoded text (number + 1) newest rest
          else newestLoop encoded text (number + 1) (Assoc.put (text row) (number, row) newest) rest
      | none => newestLoop encoded text (number + 1) (Assoc.put (text row) (number, row) newest) rest

/-- `keep.sort_unstable()`: the kept rows by their number, which no two share. -/
def insertByNumber (entry : Nat × Row V) : List (Nat × Row V) → List (Nat × Row V)
  | [] => [entry]
  | head :: rest =>
      if entry.1 < head.1 then entry :: head :: rest else head :: insertByNumber entry rest

def sortByNumber : List (Nat × Row V) → List (Nat × Row V)
  | [] => []
  | head :: rest => insertByNumber head (sortByNumber rest)

/-- Reduce a batch to one row per key, keeping the newest. -/
def collapse (kernels : Kernels V β) (columns : Columns) (batches : List (List (Row V))) :
    Except Error (List (Row V)) :=
  if batches.isEmpty then .error (.other "upsert: nothing to collapse")
  else
    let all := batches.flatten
    if all.isEmpty then .ok all
    else if 0 < nullCount all columns.key then
      .error (nullKey columns.key (nullCount all columns.key))
    else if 0 < nullCount all columns.sequence then
      .error (nullSequence columns.sequence (nullCount all columns.sequence))
    else
      match kernels.castToUtf8 with
      | .error reason =>
          .error (.schema s!"upsert key {columns.key} is not comparable: {reason}")
      | .ok utf8 =>
          match checkTiebreak all columns.sequence columns.tiebreak with
          | .error error => .error error
          | .ok () =>
              match rowConverter kernels columns.order with
              | .error reason =>
                  .error (.schema
                    s!"upsert sequence column {columns.sequence} cannot be ordered: {reason}")
              | .ok codes =>
                  let newest := newestLoop (convertRow codes columns) (keyText utf8 columns) 0 [] all
                  if newest.length = all.length then .ok all
                  else .ok ((sortByNumber (newest.map Prod.snd)).map Prod.snd)

/-! ### The merge -/

/-- What the update clause compares of the source row and the stored one. -/
inductive Expr
  | gt (column : String)
  | eq (column : String)
  | and (left right : Expr)
  | or (left right : Expr)
  deriving DecidableEq

namespace Expr

def sqlAnd : Option Bool → Option Bool → Option Bool
  | some false, _ => some false
  | _, some false => some false
  | some true, some true => some true
  | _, _ => none

def sqlOr : Option Bool → Option Bool → Option Bool
  | some true, _ => some true
  | _, some true => some true
  | some false, some false => some false
  | _, _ => none

/-- The value in SQL, where a comparison with a null is neither true nor false. -/
def eval (source stored : Row V) : Expr → Option Bool
  | gt column =>
      match source column, stored column with
      | some new, some old => some (decide (old < new))
      | _, _ => none
  | eq column =>
      match source column, stored column with
      | some new, some old => some (decide (new = old))
      | _, _ => none
  | and left right => sqlAnd (eval source stored left) (eval source stored right)
  | or left right => sqlOr (eval source stored left) (eval source stored right)

end Expr

/-- `column` decides: everything before it decided nothing, so it must be equal. -/
def decidingTerm (earlier : List String) (column : String) : Expr :=
  earlier.foldl (fun acc before => .and (.eq before) acc) (.gt column)

def newerLoop (earlier : List String) (out : Option Expr) : List String → Option Expr
  | [] => out
  | column :: rest =>
      newerLoop (earlier ++ [column])
        (some (match out with
          | some prev => .or prev (decidingTerm earlier column)
          | none => decidingTerm earlier column)) rest

/-- "Newer than the row already stored"; absent only where there is no sequence column. -/
def newerThanStored (columns : Columns) : Option Expr := newerLoop [] none columns.order

structure MergePlan (V : Type) where
  columns : Columns
  /-- The window's lower bound on the sequence column; absent for the whole target. -/
  lower : Option V
  /-- Columns a matched row may have overwritten. -/
  updateColumns : List String

namespace MergePlan

variable (plan : MergePlan V)

/-- The `ON` clause: key equality, bounded by the window. -/
def predicate (source stored : Row V) : Bool :=
  match source plan.columns.key, stored plan.columns.key with
  | some new, some old =>
      if new = old then
        match plan.lower with
        | none => true
        | some lower =>
            match stored plan.columns.sequence with
            | some reached => decide (lower ≤ reached)
            | none => false
      else false
  | _, _ => false

def newer (source stored : Row V) : Bool :=
  match newerThanStored plan.columns with
  | some expr => decide (expr.eval source stored = some true)
  | none => false

/-- The stored row with the update columns taken from the source row. -/
def overwrite (source stored : Row V) : Row V := fun column =>
  if column ∈ plan.updateColumns then source column else stored column

/-- What the merge leaves of one stored row; none when two source rows claim it. -/
def updateRow (batch : List (Row V)) (stored : Row V) : Option (Row V) :=
  match batch.filter fun source => plan.predicate source stored && plan.newer source stored with
  | [] => some stored
  | [source] => some (plan.overwrite source stored)
  | _ => none

def updateRows (batch : List (Row V)) : List (Row V) → Option (List (Row V))
  | [] => some []
  | stored :: rest =>
      match plan.updateRow batch stored, updateRows batch rest with
      | some row, some rows => some (row :: rows)
      | _, _ => none

def updated (batch table : List (Row V)) : Nat :=
  table.countP fun stored => batch.any fun source =>
    plan.predicate source stored && plan.newer source stored

/-- The source rows no stored row matches. -/
def inserted (batch table : List (Row V)) : List (Row V) :=
  batch.filter fun source => !table.any fun stored => plan.predicate source stored

end MergePlan

/-- A table upserted into, with the offset its log records. -/
structure Target (V : Type) where
  rows : List (Row V)
  version : Nat
  txn : Option Nat

structure UpsertStats where
  rowsIn : Nat
  updated : Nat
  inserted : Nat
  committed : Bool
  windowBounded : Bool

def ambiguousMatch : Error :=
  .other <| "MERGE matched a target row with multiple source rows that satisfy duplicate relevant "
    ++ "WHEN MATCHED clauses"

/-- `Sink::upsert`: a merge that changed nothing wrote nothing, so the offset gets a commit
of its own. -/
def sinkUpsert (target : Target V) (batch : List (Row V)) (sourceVersion : Nat)
    (plan : MergePlan V) : Except Error (Target V × UpsertStats) :=
  match plan.updateRows batch target.rows with
  | none => .error ambiguousMatch
  | some kept =>
      let fresh := plan.inserted batch target.rows
      let changed := plan.updated batch target.rows
      let stats := {
        rowsIn := batch.length
        updated := changed
        inserted := fresh.length
        committed := decide (0 < changed + fresh.length)
        windowBounded := plan.lower.isSome }
      if 0 < changed + fresh.length then
        .ok ({ rows := kept ++ fresh, version := target.version + 1, txn := some sourceVersion },
          stats)
      else
        .ok ({ rows := target.rows, version := target.version + 1, txn := some sourceVersion },
          stats)

/-- How an upserting pipeline is set up. -/
structure Setup (V β : Type) where
  kernels : Kernels V β
  columns : Columns
  /-- Target columns the transform produces. -/
  produced : List String
  /-- The window the plan of a merge draws for a batch against the stored rows. -/
  window : List (Row V) → List (Row V) → Option V

/-- `Pipeline::upsert`: collapse the batch, plan the merge, and merge. -/
def upsert (setup : Setup V β) (target : Target V) (batches : List (List (Row V)))
    (txnVersion : Nat) : Except Error (Target V × UpsertStats) :=
  match collapse setup.kernels setup.columns batches with
  | .error error => .error error
  | .ok batch =>
      sinkUpsert target batch txnVersion
        { columns := setup.columns
          lower := setup.window target.rows batch
          updateColumns := setup.produced }

end Upsert

end Ddi
