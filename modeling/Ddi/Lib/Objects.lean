/-
A store of objects under paths, as object stores document it: an object is written whole, and a
listing walks the paths segment by segment.
-/

import Ddi.Lib.Assoc
import Mathlib.Data.String.Basic

namespace Ddi

/-- A path, by its segments. -/
structure Path where
  parts : List String
  deriving DecidableEq

/-- What a put does where an object exists. -/
inductive PutMode
  | overwrite
  | create
  /-- Only the version that the writer has seen is replaced. -/
  | update (current : Bool)
  deriving DecidableEq

/-- Whether an object is written, where there may be one. -/
def PutMode.lands : PutMode → Option α → Bool
  | .overwrite, _ => true
  | .create, existing => existing.isNone
  | .update current, existing => existing.isSome && current

/-- Objects, one to a path. -/
structure Objects (α : Type) where
  entries : List (Path × α)
  distinct : Assoc.Distinct entries

namespace Objects

variable {α : Type}

def get (store : Objects α) (path : Path) : Option α := store.entries.lookup path

def write (store : Objects α) (path : Path) (object : α) : Objects α :=
  { entries := Assoc.put path object store.entries
    distinct := store.distinct.put path object }

def remove (store : Objects α) (path : Path) : Objects α :=
  { entries := store.entries.filter fun entry => entry.1 != path
    distinct := List.Pairwise.filter _ store.distinct }

def map {β : Type} (store : Objects α) (change : α → β) : Objects β :=
  { entries := store.entries.map fun entry => (entry.1, change entry.2)
    distinct := by
      apply List.pairwise_map.mpr
      exact store.distinct }

@[simp] theorem get_map {β : Type} (store : Objects α) (change : α → β) (path : Path) :
    (store.map change).get path = (store.get path).map change :=
  Assoc.lookup_map store.entries (fun _ object => change object) path

@[simp] theorem get_write (store : Objects α) (path other : Path) (object : α) :
    (store.write path object).get other = if other = path then some object else store.get other :=
  Assoc.lookup_put store.entries path other object

@[simp] theorem get_remove (store : Objects α) (path other : Path) :
    (store.remove path).get other = if other = path then none else store.get other := by
  rw [get, remove]
  refine (Assoc.lookup_filter store.entries (fun own => own != path) other).trans ?_
  by_cases same : other = path
  · simp [same]
  · simp [same, get]

theorem get_of_mem {store : Objects α} {path : Path} {object : α}
    (inside : (path, object) ∈ store.entries) : store.get path = some object :=
  store.distinct.lookup_of_mem inside

/-- Beneath a path, not at it. -/
def beneath (root path : Path) : Bool :=
  root.parts.isPrefixOf path.parts && root.parts.length < path.parts.length

def list (store : Objects α) (root : Path) : List (Path × α) :=
  store.entries.filter fun entry => beneath root entry.1

/-- A path in one text. -/
def text (path : Path) : String := "/".intercalate path.parts

/-- What is listed after a path, in the order of their texts. -/
def listWithOffset (store : Objects α) (root offset : Path) : List (Path × α) :=
  (store.list root).filter fun entry => text offset < text entry.1

/-- What lies right beneath a path, and the directories there. -/
structure Listing (α : Type) where
  commonPrefixes : List Path
  objects : List (Path × α)

def listWithDelimiter (store : Objects α) (root : Path) : Listing α :=
  let depth := root.parts.length + 1
  { commonPrefixes := (((store.list root).filter fun entry => depth < entry.1.parts.length).map
      fun entry => Path.mk (entry.1.parts.take depth)).dedup
    objects := (store.list root).filter fun entry => entry.1.parts.length = depth }

end Objects

end Ddi
