/-
The URIs and the names a config gives its tables and pipelines.
-/

import Ddi.Pipeline.Config
import Mathlib.Tactic.Common

namespace Ddi.Resolver

/-! ### Text -/

/-- Unicode's white space. -/
def isWhiteSpace (character : Char) : Bool :=
  let code := character.toNat
  (9 ≤ code && code ≤ 13) || code == 0x20 || code == 0x85 || code == 0xA0 || code == 0x1680 ||
    (0x2000 ≤ code && code ≤ 0x200A) || code == 0x2028 || code == 0x2029 || code == 0x202F ||
    code == 0x205F || code == 0x3000

def trimEnd (drop : Char → Bool) (text : List Char) : List Char :=
  (text.reverse.dropWhile drop).reverse

def trimChars (text : List Char) : List Char :=
  trimEnd isWhiteSpace (text.dropWhile isWhiteSpace)

def trim (text : String) : String :=
  String.ofList (trimChars text.toList)

/-- What stands before and after the first occurrence of the separator. -/
def splitOnce (separator : List Char) : List Char → Option (List Char × List Char)
  | [] => if separator.isEmpty then some ([], []) else none
  | first :: rest =>
      if separator.isPrefixOf (first :: rest) then
        some ([], (first :: rest).drop separator.length)
      else (splitOnce separator rest).map fun (before, later) => (first :: before, later)

def endsWith (text ending : List Char) : Bool :=
  ending.isSuffixOf text

/-- The text without the ending, however often it stands there. -/
def trimEndMatches (ending : List Char) (text : List Char) : List Char :=
  if ending ≠ [] ∧ ending <:+ text then trimEndMatches ending (text.take (text.length - ending.length))
  else text
  termination_by text.length
  decreasing_by
    rename_i ends
    have shorter := ends.2.length_le
    have some_ending := List.length_pos_of_ne_nil ends.1
    simp only [List.length_take]
    omega

/-! ### One table under one string -/

/-- Every run of `/` made one, and none at the end. -/
def collapseSlashes (path : List Char) : List Char :=
  let out := path.foldl (fun out character =>
    if character ≠ '/' ∨ out.getLast? ≠ some '/' then out ++ [character] else out) []
  trimEnd (· == '/') out

/-- A URI's scheme, and what stands after it. -/
def schemeOf (uri : List Char) : Option (List Char × List Char) :=
  match splitOnce "://".toList uri with
  | some (scheme, rest) => some (scheme.map Char.toLower, rest)
  | none =>
      match splitOnce ":".toList uri with
      | some (scheme, path) =>
          if scheme.map Char.toLower = "file".toList ∧ path.head? = some '/' then
            some ("file".toList, path)
          else if uri.head? = some '/' then some ("file".toList, uri)
          else none
      | none => if uri.head? = some '/' then some ("file".toList, uri) else none

/-- A table's URI as one string however it is spelt. -/
def tableKey (uri : String) : String :=
  let text := trimChars uri.toList
  match schemeOf text with
  | none => String.ofList (collapseSlashes text)
  | some (scheme, rest) =>
      let host := rest.takeWhile (· ≠ '/')
      let path := rest.dropWhile (· ≠ '/')
      String.ofList (scheme ++ "://".toList ++ host.map Char.toLower ++ collapseSlashes path)

/-! ### Stages -/

namespace Stage

/-- Where a staged pipeline's rows wait, unless it says otherwise. -/
def uriFor (targetUri : String) : String :=
  String.ofList (trimEndSlashes targetUri) ++ stageSuffix

def ingestName (name : String) : String := name ++ "__ingest"

def applyName (name : String) : String := name ++ "__apply"

def ingestAppId (appId : String) : String := appId ++ ".ingest"

def applyAppId (appId : String) : String := appId ++ ".apply"

/-- The name of the entry an ingest half was split from, as its own name shows it. -/
def stem (name : String) : String :=
  String.ofList (trimEndMatches "__ingest".toList name.toList)

end Stage

/-- Where a table's rejects go, unless the entry says otherwise. -/
def dqUriFor (targetUri : String) : String :=
  String.ofList (trimEndSlashes targetUri) ++ "__ddi_dq"

def dqOf (targetUri : String) (dqUri : Option String) : String :=
  dqUri.getD (dqUriFor targetUri)

end Ddi.Resolver
