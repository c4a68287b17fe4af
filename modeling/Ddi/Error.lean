/-
The errors of a pipeline reading a Delta source, with what each one names.
-/

import Ddi.Delta.Log

namespace Ddi

open Ddi.Source (StreamCursor)

inductive Error
  /-- A `Remove` with `dataChange` under the default change policy. -/
  | changeCommit (version : Nat)
  /-- One source commit over the batch limits, with splitting off. -/
  | commitTooLarge (version : Nat) (files bytes maxFiles maxBytes : Nat)
  | deletionVectorUnsupported (version : Nat) (path : String)
  /-- A commit inside the range to be read is no longer in the log. -/
  | cursorUnavailable (sourceUri : String) (cursor : StreamCursor)
  | sourceReplaced (sourceUri detail : String)
  | delta (error : Delta.DeltaError)
  /-- No version a pipeline that has never committed could start from. -/
  | bootstrapUnreachable (sourceUri : String) (configured oldestAvailable head : Nat)
  | config (message : String)
  | schema (message : String)
  | other (message : String)
  deriving DecidableEq

end Ddi
