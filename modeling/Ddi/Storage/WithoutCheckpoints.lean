/-
The object store of a handle opened by replaying the log: a table's checkpoints are hidden in it,
but for those written through it.
-/

import Ddi.Lib.Objects

namespace Ddi.Storage

/-- An object, marked where it was last written through the handle. -/
structure File (β : Type) where
  content : β
  through : Bool

def mentions (text part : String) : Bool :=
  text.toList.tails.any fun rest => part.toList.isPrefixOf rest

/-- The files that make up a table's checkpoint, and nothing else. -/
def isCheckpointArtefact (path : Path) : Bool :=
  match path.parts.reverse with
  | name :: "_delta_log" :: _ =>
      "_last_checkpoint".toList.isPrefixOf name.toList || mentions name ".checkpoint."
  | _ :: "_sidecars" :: "_delta_log" :: _ => true
  | _ => false

variable {β : Type}

structure WithoutCheckpoints (β : Type) where
  inner : Objects (File β)
  /-- The checkpoint artefacts written through this store. -/
  ours : List Path
  /-- Uploads in parts that are not complete yet. -/
  uploads : List Path

namespace WithoutCheckpoints

def new (inner : Objects (File β)) : WithoutCheckpoints β :=
  { inner, ours := [], uploads := [] }

variable (store : WithoutCheckpoints β)

def hidden (path : Path) : Bool := isCheckpointArtefact path && !store.ours.contains path

def remember (path : Path) : WithoutCheckpoints β :=
  if isCheckpointArtefact path then { store with ours := store.ours.insert path } else store

/-- `fault` is any other reason why the storage does not write. -/
def putOpts (location : Path) (content : β) (mode : PutMode) (fault : Bool) :
    WithoutCheckpoints β :=
  let store := store.remember location
  if mode.lands (store.inner.get location) && !fault then
    { store with inner := store.inner.write location { content, through := true } }
  else store

def putMultipartOpts (location : Path) : WithoutCheckpoints β :=
  let store := store.remember location
  { store with uploads := location :: store.uploads }

/-- An upload in parts is completed, in the storage itself. -/
def complete (location : Path) (content : β) : WithoutCheckpoints β :=
  if location ∈ store.uploads then
    { store with
      inner := store.inner.write location { content, through := true }
      uploads := store.uploads.erase location }
  else store

def getOpts (location : Path) : Option (File β) :=
  if store.hidden location then none else store.inner.get location

def delete (location : Path) : WithoutCheckpoints β :=
  { store with inner := store.inner.remove location }

def list (root : Path) : List (Path × File β) :=
  (store.inner.list root).filter fun entry => !store.hidden entry.1

def listWithOffset (root offset : Path) : List (Path × File β) :=
  (store.inner.listWithOffset root offset).filter fun entry => !store.hidden entry.1

def listWithDelimiter (root : Path) : Objects.Listing (File β) :=
  let got := store.inner.listWithDelimiter root
  { got with objects := got.objects.filter fun entry => !store.hidden entry.1 }

def copyOpts (source target : Path) (mode : PutMode) (fault : Bool) : WithoutCheckpoints β :=
  let store := store.remember target
  match store.inner.get source with
  | some file =>
      if mode.lands (store.inner.get target) && !fault then
        { store with inner := store.inner.write target { content := file.content, through := true } }
      else store
  | none => store

end WithoutCheckpoints

/-- The store that a table's objects are in, and the log in it: opened with every commit replayed,
where the log still reaches back to the first. -/
def openReplayingTheLog (stored : Objects β) (log : Path) : Except String (WithoutCheckpoints β) :=
  if (stored.get ⟨log.parts ++ ["00000000000000000000.json"]⟩).isNone then
    .error ("the log no longer reaches back to version 0, so replaying it would build a snapshot " ++
      "of only the commits that survive — a table missing every row written before them, with " ++
      "nothing to say so")
  else
    .ok (.new (stored.map fun content => { content, through := false }))

/-- What happens to the storage: through the handle, or straight by another engine. -/
inductive Event (β : Type)
  | put (location : Path) (content : β) (mode : PutMode) (fault : Bool)
  | startMultipart (location : Path)
  | complete (location : Path) (content : β)
  | copy (source target : Path) (mode : PutMode) (fault : Bool)
  | delete (location : Path)
  | otherPut (location : Path) (content : β) (mode : PutMode) (fault : Bool)
  | otherDelete (location : Path)

def step (store : WithoutCheckpoints β) : Event β → WithoutCheckpoints β
  | .put location content mode fault => store.putOpts location content mode fault
  | .startMultipart location => store.putMultipartOpts location
  | .complete location content => store.complete location content
  | .copy source target mode fault => store.copyOpts source target mode fault
  | .delete location => store.delete location
  | .otherPut location content mode fault =>
      if mode.lands (store.inner.get location) && !fault then
        { store with inner := store.inner.write location { content, through := false } }
      else store
  | .otherDelete location => { store with inner := store.inner.remove location }

/-- The store after each event, and before the first. -/
def states (store : WithoutCheckpoints β) : List (Event β) → List (WithoutCheckpoints β)
  | [] => [store]
  | event :: events => store :: states (step store event) events

end Ddi.Storage
