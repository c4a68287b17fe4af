/-
What the names and URIs of a config say of each other: which offsets two app ids can share, and
which halves and stages a name or a URI can stand for.
-/

import Ddi.Config.Uri
import Mathlib.Data.List.TakeWhile

namespace Ddi.Resolver

/-! ### Offset keys -/

theorem append_separated {α : Type} {separator : α} {first second : List α} {left right : List α}
    (clear : separator ∉ left) (clear' : separator ∉ right)
    (same : first ++ separator :: left = second ++ separator :: right) : first = second := by
  induction first generalizing second with
  | nil =>
      cases second with
      | nil => rfl
      | cons head second =>
          obtain ⟨_head, rest⟩ := List.cons.inj same
          exact absurd (by rw [rest]; simp) clear
  | cons head first ih =>
      cases second with
      | nil =>
          obtain ⟨_head, rest⟩ := List.cons.inj same
          exact absurd (by rw [← rest]; simp) clear'
      | cons other second =>
          obtain ⟨heads, rest⟩ := List.cons.inj same
          rw [heads, ih rest]

theorem minus_not_mem_digits (number : Nat) : '-' ∉ (toString number).toList := by
  intro member
  have among : '-' ∈ Nat.toDigits 10 number := by
    rw [← Nat.toList_repr]
    exact member
  exact absurd (Nat.isDigit_of_mem_toDigits (by decide) (by decide) among) (by decide)

/-- Two app ids never share the offset key of a partition. -/
theorem appId_of_offsetKey {appId other : String} {partition elsewhere : Nat}
    (same : appId ++ "-" ++ toString partition = other ++ "-" ++ toString elsewhere) :
    appId = other := by
  have texts := congrArg String.toList same
  simp only [String.toList_append, List.append_assoc] at texts
  exact String.toList_inj.mp
    (append_separated (minus_not_mem_digits partition) (minus_not_mem_digits elsewhere) texts)

/-! ### Halves -/

theorem applyName_ne_ingestName (name other : String) :
    Stage.applyName name ≠ Stage.ingestName other := by
  intro same
  have texts := congrArg (fun text : String => text.toList.getLast?) same
  simp [Stage.applyName, Stage.ingestName] at texts

theorem applyName_inj {name other : String} (same : Stage.applyName name = Stage.applyName other) :
    name = other := by
  have texts := congrArg String.toList same
  simp only [Stage.applyName, String.toList_append] at texts
  exact String.toList_inj.mp (List.append_cancel_right texts)

theorem ingestName_ne_empty (name : String) : Stage.ingestName name ≠ "" := by
  intro same
  have texts := congrArg String.toList same
  simp [Stage.ingestName] at texts

/-- An ingest half's name shows what its entry's name does. -/
theorem stem_ingestName (name : String) : Stage.stem (Stage.ingestName name) = Stage.stem name := by
  unfold Stage.stem Stage.ingestName
  rw [trimEndMatches, if_pos]
  · simp [String.toList_append]
  · constructor
    · decide
    · rw [String.toList_append]
      exact List.suffix_append _ _

/-! ### Stages -/

theorem trimEnd_append (drop : Char → Bool) (text : List Char) :
    ∃ tail, text = trimEnd drop text ++ tail ∧ ∀ character, character ∈ tail → drop character := by
  refine ⟨(text.reverse.takeWhile drop).reverse, ?_, ?_⟩
  · unfold trimEnd
    rw [← List.reverse_append, List.takeWhile_append_dropWhile, List.reverse_reverse]
  · intro character member
    exact List.mem_takeWhile_imp (List.mem_reverse.mp member)

theorem trimEnd_of_last (drop : Char → Bool) (text : List Char) {last : Char} (tail : List Char)
    (stays : drop last = false) (dropped : ∀ character, character ∈ tail → drop character) :
    trimEnd drop (text ++ last :: tail) = text ++ [last] := by
  unfold trimEnd
  have reversed : (text ++ last :: tail).reverse = tail.reverse ++ last :: text.reverse := by simp
  rw [reversed, List.dropWhile_append_of_pos fun character member =>
    dropped character (List.mem_reverse.mp member), List.dropWhile_cons_of_neg (by simp [stays])]
  simp

theorem dropWhile_append_of_head (drop : Char → Bool) (text : List Char) {head : Char}
    (rest : List Char) (stays : drop head = false) :
    ∃ left, (text ++ head :: rest).dropWhile drop = left ++ head :: rest := by
  induction text with
  | nil => exact ⟨[], by rw [List.nil_append, List.dropWhile_cons_of_neg (by simp [stays])]⟩
  | cons first text ih =>
      by_cases dropped : drop first = true
      · obtain ⟨left, same⟩ := ih
        exact ⟨left, by rw [List.cons_append, List.dropWhile_cons_of_pos dropped, same]⟩
      · exact ⟨first :: text, by rw [List.cons_append, List.dropWhile_cons_of_neg dropped]⟩

/-- A URI known for a stage's is one without the blanks around it, too. -/
theorem isStageUri_trim {uri : String} (stage : isStageUri uri = true) :
    isStageUri (trim uri) = true := by
  obtain ⟨tail, text_eq, slashes⟩ := trimEnd_append (· == '/') uri.toList
  obtain ⟨head, head_eq⟩ := List.isSuffixOf_iff_suffix.mp stage
  change head ++ stageSuffix.toList = trimEnd (· == '/') uri.toList at head_eq
  rw [← head_eq] at text_eq
  obtain ⟨rest, begins⟩ : ∃ rest, stageSuffix.toList = '_' :: rest := ⟨_, rfl⟩
  obtain ⟨body, ends⟩ : ∃ body, stageSuffix.toList = body ++ ['e'] := ⟨"__ddi_stag".toList, rfl⟩
  -- Blanks before the URI stop at the stage's suffix, those behind it at the last slash or letter.
  obtain ⟨left, dropped⟩ :=
    dropWhile_append_of_head isWhiteSpace head (rest ++ tail) (show isWhiteSpace '_' = false by decide)
  have front : uri.toList.dropWhile isWhiteSpace = left ++ body ++ 'e' :: tail := by
    have whole : head ++ '_' :: (rest ++ tail) = uri.toList := by
      rw [text_eq, begins]
      simp
    have again : left ++ '_' :: (rest ++ tail) = left ++ body ++ 'e' :: tail := by
      rw [← List.cons_append, ← begins, ends]
      simp
    rw [← whole, dropped, again]
  have back : trimEnd isWhiteSpace (left ++ body ++ 'e' :: tail) = left ++ body ++ 'e' :: tail := by
    rcases List.eq_nil_or_concat tail with rfl | ⟨most, last, rfl⟩
    · exact trimEnd_of_last isWhiteSpace (left ++ body) [] (by decide) (by simp)
    · have slash : last = '/' := by simpa using slashes last (by simp)
      subst slash
      have moved := trimEnd_of_last isWhiteSpace (left ++ body ++ 'e' :: most) []
        (show isWhiteSpace '/' = false by decide) (by simp)
      simpa using moved
  apply List.isSuffixOf_iff_suffix.mpr
  change stageSuffix.toList <:+ trimEnd (· == '/') (trim uri).toList
  have trimmed : (trim uri).toList = left ++ body ++ 'e' :: tail := by
    unfold trim trimChars
    rw [front, back, String.toList_ofList]
  rw [trimmed, trimEnd_of_last _ _ tail (by decide) slashes, List.append_assoc, ← ends]
  exact List.suffix_append left _

end Ddi.Resolver
