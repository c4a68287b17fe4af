/-
When the window of a merge leaves out no stored row of a key in the batch.
-/

import Ddi.Merge.Window
import Ddi.Upsert

namespace Ddi.Merge

variable {F : Type} [LinearOrder F]

/-! ### Statistics that are true -/

section Truth

variable (doubles : Doubles F) (slack : Option (Slack F))

def lowestOf (recorded : Bound F) : Bound F :=
  match slack with
  | none => recorded
  | some slack => slack.below doubles recorded

def highestOf (recorded : Bound F) : Bound F :=
  match slack with
  | none => recorded
  | some slack => slack.above doubles recorded

/-- What a writer may record for a bound that no value of the column exceeds: the beginning of a
text, a timestamp cut to the millisecond, a double near a DECIMAL, and otherwise the bound. -/
def Records (recorded top : Bound F) : Prop :=
  match slack, recorded, top with
  | _, .text kept, .text whole => kept.toList <+: whole.toList
  | some .millisecond, .int kept, .int whole =>
      whole < 2 ^ 63 ∧ (kept = whole ∨ kept = whole - whole % 1000)
  | some (.decimal _), .float _, .float _ => top ≤ highestOf doubles slack recorded
  | _, recorded, top => recorded = top

/-- The statistics of a column bound its values. -/
structure TrueStats (stats : ColumnStats F) (values : List (Bound F)) : Prop where
  min : ∀ recorded, stats.min = some recorded →
    ∀ value, value ∈ values → lowestOf doubles slack recorded ≤ value
  max : ∀ recorded, stats.max = some recorded →
    ∃ top, Records doubles slack recorded top ∧ ∀ value, value ∈ values → value ≤ top

theorem records_begins {recorded top : Bound F} (records : Records doubles slack recorded top) :
    ∃ bound, (highestOf doubles slack recorded).Begins bound ∧ top ≤ bound := by
  unfold Records at records
  split at records
  · rename_i kept whole
    refine ⟨.text whole, Or.inr ⟨kept, whole, ?_, rfl, records⟩, le_refl _⟩
    unfold highestOf
    cases slack with
    | none => rfl
    | some slack => cases slack <;> rfl
  · rename_i kept whole
    refine ⟨_, Or.inl rfl, ?_⟩
    obtain ⟨fits, kept_eq⟩ := records
    simp only [highestOf, Slack.above]
    split
    · rw [Bound.int_le_int]
      unfold Slack.truncatedMicros
      omega
    · rw [Bound.int_le_int]
      omega
  · exact ⟨_, Or.inl rfl, records⟩
  · rename_i no_text no_millisecond no_decimal
    subst records
    refine ⟨_, Or.inl rfl, ?_⟩
    unfold highestOf
    cases slack with
    | none => exact le_refl _
    | some slack =>
        cases slack with
        | decimal unit =>
            cases recorded with
            | int value => exact le_refl _
            | text value => exact le_refl _
            | float value => exact absurd rfl (no_decimal unit value value rfl rfl)
        | millisecond =>
            cases recorded with
            | int value => exact absurd rfl (no_millisecond value value rfl rfl)
            | text value => exact le_refl _
            | float value => exact le_refl _

end Truth

/-! ### One file -/

section Files

variable (doubles : Doubles F) (keyColumn sequenceColumn : String)

/-- What a file records of its keys and its sequences is true. -/
structure TargetFile.True (keySlack sequenceSlack : Option (Slack F)) (file : TargetFile F) :
    Prop where
  keys : ∀ columns, file.stats = some (some columns) →
    TrueStats doubles keySlack (columns keyColumn) (file.rows.filterMap Prod.fst)
  sequences : ∀ columns, file.stats = some (some columns) →
    TrueStats doubles sequenceSlack (columns sequenceColumn) (file.rows.filterMap Prod.snd)

variable {doubles keyColumn sequenceColumn} {bounds : BatchBounds F} {file : TargetFile F}

omit [LinearOrder F] in
theorem loosened_min (stats : ColumnStats F) (slack : Option (Slack F)) :
    (stats.loosened doubles slack).min = stats.min.map (lowestOf doubles slack) := by
  cases slack with
  | none => exact (Option.map_id' (x := stats.min)).symm
  | some slack => rfl

omit [LinearOrder F] in
theorem loosened_max (stats : ColumnStats F) (slack : Option (Slack F)) :
    (stats.loosened doubles slack).max = stats.max.map (highestOf doubles slack) := by
  cases slack with
  | none => exact (Option.map_id' (x := stats.max)).symm
  | some slack => rfl

theorem excluded_semantics
    (holds : file.True doubles keyColumn sequenceColumn bounds.keySlack bounds.sequenceSlack)
    (excluded : verdict doubles keyColumn sequenceColumn bounds file = .excluded)
    {key : Bound F} {sequence : Option (Bound F)} (member : (some key, sequence) ∈ file.rows) :
    key ∉ bounds.keys := by
  unfold verdict at excluded
  cases recorded : file.stats with
  | none => simp [recorded] at excluded
  | some readable =>
      cases readable with
      | none => simp [recorded] at excluded
      | some columns =>
          simp only [recorded, loosened_min, loosened_max] at excluded
          obtain ⟨lowest, highest⟩ := holds.keys columns recorded
          cases min_eq : (columns keyColumn).min with
          | none => simp [min_eq] at excluded
          | some keyMin =>
              cases max_eq : (columns keyColumn).max with
              | none => simp [min_eq, max_eq] at excluded
              | some keyMax =>
                  simp only [min_eq, max_eq, Option.map_some] at excluded
                  split at excluded
                  · split at excluded <;> cases excluded
                  · rename_i untouched
                    have among : key ∈ file.rows.filterMap Prod.fst :=
                      List.mem_filterMap.mpr ⟨_, member, rfl⟩
                    obtain ⟨top, records, under_top⟩ := highest keyMax max_eq
                    obtain ⟨bound, begins, top_under⟩ := records_begins doubles _ records
                    exact not_wanted_of_excluded bounds.sorted (Bool.not_eq_true _ ▸ untouched) begins
                      (lowest keyMin min_eq key among) (le_trans (under_top key among) top_under)

theorem candidate_semantics
    (holds : file.True doubles keyColumn sequenceColumn bounds.keySlack bounds.sequenceSlack)
    {least : Bound F} (candidate : verdict doubles keyColumn sequenceColumn bounds file = .candidate least)
    {key : Option (Bound F)} {sequence : Bound F} (member : (key, some sequence) ∈ file.rows) :
    least ≤ sequence := by
  unfold verdict at candidate
  cases recorded : file.stats with
  | none => simp [recorded] at candidate
  | some readable =>
      cases readable with
      | none => simp [recorded] at candidate
      | some columns =>
          simp only [recorded] at candidate
          split at candidate
          · split at candidate
            · rw [loosened_min] at candidate
              cases min_eq : (columns sequenceColumn).min with
              | none => simp [min_eq] at candidate
              | some sequenceMin =>
                  simp only [min_eq, Option.map_some, Verdict.candidate.injEq] at candidate
                  subst candidate
                  have among : sequence ∈ file.rows.filterMap Prod.snd :=
                    List.mem_filterMap.mpr ⟨_, member, rfl⟩
                  exact (holds.sequences columns recorded).min sequenceMin min_eq sequence among
            · cases candidate
          · cases candidate

end Files

/-! ### The walk over the files -/

section Walk

variable (doubles : Doubles F) (keyColumn sequenceColumn : String) (bounds : BatchBounds F)

/-- A file that neither opens the window nor brings it to the floor. -/
def StaysAbove (floor : Bound F) (file : TargetFile F) : Prop :=
  verdict doubles keyColumn sequenceColumn bounds file = .excluded ∨
    ∃ least, verdict doubles keyColumn sequenceColumn bounds file = .candidate least ∧ floor < least

/-- A file read to the end of the walk: excluded, or with a minimum the bound is at or below. -/
def Within (lower : Option (Bound F)) (file : TargetFile F) : Prop :=
  verdict doubles keyColumn sequenceColumn bounds file = .excluded ∨
    ∃ least bound, verdict doubles keyColumn sequenceColumn bounds file = .candidate least ∧
      lower = some bound ∧ bound ≤ least

variable {doubles keyColumn sequenceColumn bounds}

theorem Within.lowered {lower : Option (Bound F)} {bound : Bound F} {file : TargetFile F}
    (within : Within doubles keyColumn sequenceColumn bounds lower file)
    (below : ∀ former, lower = some former → bound ≤ former) :
    Within doubles keyColumn sequenceColumn bounds (some bound) file := by
  rcases within with excluded | ⟨least, former, candidate, lower_eq, under⟩
  · exact Or.inl excluded
  · exact Or.inr ⟨least, bound, candidate, rfl, le_trans (below former lower_eq) under⟩

variable (doubles keyColumn sequenceColumn bounds) in
/-- The walk stopped at a file that brought the bound to the floor. -/
def Stopped (floor drawn : Option (Bound F)) (files : List (TargetFile F)) : Prop :=
  ∃ bound before file after least, floor = some bound ∧ files = before ++ file :: after ∧
    (∀ earlier, earlier ∈ before → StaysAbove doubles keyColumn sequenceColumn bounds bound earlier) ∧
    verdict doubles keyColumn sequenceColumn bounds file = .candidate least ∧ least ≤ bound ∧
    drawn = some least

variable (doubles keyColumn sequenceColumn bounds) in
/-- The walk read every file, and its bound is no higher than it was. -/
def ReadAll (lower drawn : Option (Bound F)) (files : List (TargetFile F)) : Prop :=
  (∀ file, file ∈ files → Within doubles keyColumn sequenceColumn bounds drawn file) ∧
    ∀ current, lower = some current → ∃ bound, drawn = some bound ∧ bound ≤ current

theorem Stopped.cons {floor drawn : Option (Bound F)} {head : TargetFile F}
    {files : List (TargetFile F)}
    (stopped : Stopped doubles keyColumn sequenceColumn bounds floor drawn files)
    (above : ∀ bound, floor = some bound →
      StaysAbove doubles keyColumn sequenceColumn bounds bound head) :
    Stopped doubles keyColumn sequenceColumn bounds floor drawn (head :: files) := by
  obtain ⟨bound, before, file, after, least, floor_eq, split, earlier, stop⟩ := stopped
  refine ⟨bound, head :: before, file, after, least, floor_eq, by rw [split]; rfl, ?_, stop⟩
  intro other member
  rcases List.mem_cons.mp member with rfl | later
  · exact above bound floor_eq
  · exact earlier other later

theorem Stopped.here {floor : Option (Bound F)} {head : TargetFile F} {least : Bound F}
    (files : List (TargetFile F))
    (judged : verdict doubles keyColumn sequenceColumn bounds head = .candidate least)
    (stops : atFloor floor least = true) :
    Stopped doubles keyColumn sequenceColumn bounds floor (some least) (head :: files) := by
  cases floor with
  | none => cases stops
  | some bound =>
      refine ⟨bound, [], head, files, least, rfl, rfl, ?_, judged, of_decide_eq_true stops, rfl⟩
      intro earlier member
      cases member

theorem lt_of_not_atFloor {bound least : Bound F} (high : atFloor (some bound) least = false) :
    bound < least :=
  not_le.mp (of_decide_eq_false high)

theorem ended_cons {floor lower drawn : Option (Bound F)} {bound least : Bound F}
    {head : TargetFile F} {files : List (TargetFile F)}
    (judged : verdict doubles keyColumn sequenceColumn bounds head = .candidate least)
    (under : bound ≤ least) (lowered : ∀ current, lower = some current → bound ≤ current)
    (high : atFloor floor bound = false)
    (ended : ReadAll doubles keyColumn sequenceColumn bounds (some bound) drawn files ∨
      Stopped doubles keyColumn sequenceColumn bounds floor drawn files) :
    ReadAll doubles keyColumn sequenceColumn bounds lower drawn (head :: files) ∨
      Stopped doubles keyColumn sequenceColumn bounds floor drawn (head :: files) := by
  rcases ended with ⟨all, kept⟩ | stopped
  · left
    obtain ⟨final, final_eq, final_under⟩ := kept bound rfl
    constructor
    · intro file member
      rcases List.mem_cons.mp member with rfl | later
      · exact Or.inr ⟨least, final, judged, final_eq, le_trans final_under under⟩
      · exact all file later
    · intro current current_eq
      exact ⟨final, final_eq, le_trans final_under (lowered current current_eq)⟩
  · right
    apply stopped.cons
    intro floor_bound floor_eq
    rw [floor_eq] at high
    exact Or.inr ⟨least, judged, lt_of_lt_of_le (lt_of_not_atFloor high) under⟩

theorem draw_semantics {floor lower drawn : Option (Bound F)} {files : List (TargetFile F)}
    {candidates examined candidates' examined' : Nat}
    (draws : draw doubles keyColumn sequenceColumn bounds floor lower candidates examined files =
      .drawn drawn candidates' examined')
    (above : ∀ current, lower = some current → atFloor floor current = false) :
    ReadAll doubles keyColumn sequenceColumn bounds lower drawn files ∨
      Stopped doubles keyColumn sequenceColumn bounds floor drawn files := by
  induction files generalizing lower candidates examined with
  | nil =>
      left
      cases draws
      constructor
      · intro file member
        cases member
      · intro current current_eq
        exact ⟨current, current_eq, le_refl _⟩
  | cons head files ih =>
      unfold draw at draws
      cases judged : verdict doubles keyColumn sequenceColumn bounds head with
      | unanswered why => simp [judged] at draws
      | excluded =>
          simp only [judged] at draws
          rcases ih draws above with ⟨all, kept⟩ | stopped
          · left
            refine ⟨?_, kept⟩
            intro file member
            rcases List.mem_cons.mp member with rfl | later
            · exact Or.inl judged
            · exact all file later
          · right
            exact stopped.cons fun _ _ => Or.inl judged
      | candidate least =>
          simp only [judged] at draws
          -- The bound is left as it is, stops the walk, or is lowered to the candidate's minimum.
          cases covers : coversAlready lower least with
          | true =>
              simp only [covers, if_true] at draws
              cases lower with
              | none => cases covers
              | some current =>
                  have high := above current rfl
                  apply ended_cons judged (of_decide_eq_true covers) _ high (ih draws above)
                  intro former former_eq
                  cases former_eq
                  exact le_refl _
          | false =>
              simp only [covers, Bool.false_eq_true, if_false] at draws
              cases stops : atFloor floor least with
              | true =>
                  simp only [stops, if_true] at draws
                  right
                  cases draws
                  exact Stopped.here files judged stops
              | false =>
                  simp only [stops, Bool.false_eq_true, if_false] at draws
                  apply ended_cons judged (le_refl _) _ stops
                  · apply ih draws
                    intro current current_eq
                    cases current_eq
                    exact stops
                  · intro former former_eq
                    rw [former_eq] at covers
                    exact le_of_lt (not_le.mp (of_decide_eq_false covers))

theorem draw_stops {floor least : Bound F} {lower : Option (Bound F)}
    {before : List (TargetFile F)} {file : TargetFile F} (after : List (TargetFile F))
    (earlier : ∀ other, other ∈ before →
      StaysAbove doubles keyColumn sequenceColumn bounds floor other)
    (judged : verdict doubles keyColumn sequenceColumn bounds file = .candidate least)
    (sinks : least ≤ floor) (above : ∀ current, lower = some current → floor < current)
    (candidates examined : Nat) :
    ∃ candidates' examined', draw doubles keyColumn sequenceColumn bounds (some floor) lower
      candidates examined (before ++ file :: after) = .drawn (some least) candidates' examined' := by
  induction before generalizing lower candidates examined with
  | nil =>
      have uncovered : coversAlready lower least = false := by
        cases lower with
        | none => rfl
        | some current =>
            exact decide_eq_false (not_le.mpr (lt_of_le_of_lt sinks (above current rfl)))
      have stops : atFloor (some floor) least = true := decide_eq_true sinks
      refine ⟨candidates + 1, examined + 1, ?_⟩
      rw [List.nil_append, draw, judged]
      simp only [uncovered, stops, Bool.false_eq_true, if_false, if_true]
  | cons head before ih =>
      have rest := fun other member => earlier other (List.mem_cons_of_mem head member)
      rw [List.cons_append, draw]
      rcases earlier head List.mem_cons_self with excluded | ⟨high, candidate, beyond⟩
      · rw [excluded]
        exact ih rest above candidates (examined + 1)
      · rw [candidate]
        dsimp only
        cases covers : coversAlready lower high with
        | true =>
            rw [if_pos rfl]
            exact ih rest above (candidates + 1) (examined + 1)
        | false =>
            have not_yet : atFloor (some floor) high = false := decide_eq_false (not_le.mpr beyond)
            simp only [not_yet, Bool.false_eq_true, if_false]
            apply ih rest _ (candidates + 1) (examined + 1)
            intro current current_eq
            cases current_eq
            exact beyond

end Walk

/-! ### Completeness -/

section Completeness

variable (doubles : Doubles F) (keyColumn sequenceColumn : String)
  (rows : List (Bound F × Bound F)) (bounds : BatchBounds F) (files : List (TargetFile F))
  (lookback : Option (Lookback F)) (sequenceIsTemporal : Bool)

/-- A window that is not clamped leaves out no row with a sequence and a key of the batch. -/
def LeavesOutNone : Prop :=
  ∀ window, plan doubles keyColumn sequenceColumn bounds files lookback sequenceIsTemporal = .ok window →
    window.clamped = false → ∀ file, file ∈ files → ∀ key sequence,
      (some key, some sequence) ∈ file.rows → key ∈ rows.map Prod.fst →
        ∀ lower, window.lower = some lower → lower ≤ sequence

/-- A file whose minimum is the lookback's floor itself, before it none that opens the window or
reaches the floor, and behind it a row of a key in the batch from below the floor. -/
def StopsShort : Prop :=
  ∃ floor before file after,
    floorOf doubles sequenceColumn bounds lookback sequenceIsTemporal = .ok (some floor) ∧
    files = before ++ file :: after ∧
    (∀ earlier, earlier ∈ before →
      StaysAbove doubles keyColumn sequenceColumn bounds floor earlier) ∧
    verdict doubles keyColumn sequenceColumn bounds file = .candidate floor ∧
    ∃ later, later ∈ after ∧ ∃ key sequence, (some key, some sequence) ∈ later.rows ∧
      key ∈ rows.map Prod.fst ∧ sequence < floor

end Completeness

variable {doubles : Doubles F} {keyColumn sequenceColumn : String}
  {rows : List (Bound F × Bound F)} {bounds : BatchBounds F} {files : List (TargetFile F)}
  {lookback : Option (Lookback F)} {sequenceIsTemporal : Bool}
  {keySlack sequenceSlack : Option (Slack F)}

theorem BatchBounds.of_semantics (batch : BatchBounds.of rows keySlack sequenceSlack = some bounds) :
    bounds.keySlack = keySlack ∧ bounds.sequenceSlack = sequenceSlack ∧
      ∀ key, key ∈ bounds.keys ↔ key ∈ rows.map Prod.fst := by
  unfold BatchBounds.of at batch
  split at batch
  · cases batch
  · cases batch
    refine ⟨rfl, rfl, ?_⟩
    intro key
    rw [mem_dedup, List.mem_insertionSort]

/-- The window of an unclamped plan leaves out no row of the batch's keys, unless the walk over the
files stops at the floor itself before it comes to one. -/
theorem plan_complete_iff (batch : BatchBounds.of rows keySlack sequenceSlack = some bounds)
    (holds : ∀ file, file ∈ files →
      file.True doubles keyColumn sequenceColumn keySlack sequenceSlack) :
    LeavesOutNone doubles keyColumn sequenceColumn rows bounds files lookback sequenceIsTemporal ↔
      ¬ StopsShort doubles keyColumn sequenceColumn rows bounds files lookback
        sequenceIsTemporal := by
  obtain ⟨key_slack, sequence_slack, mem_keys⟩ := BatchBounds.of_semantics batch
  rw [← key_slack, ← sequence_slack] at holds
  constructor
  · rintro complete ⟨floor, before, file, after, floor_eq, split, earlier, judged, later, member, key,
      sequence, row, among, under⟩
    have no_bound : ∀ current, (none : Option (Bound F)) = some current → floor < current :=
      fun _ absent => by cases absent
    obtain ⟨candidates, examined, draws⟩ :=
      draw_stops after earlier judged (le_refl floor) no_bound 0 0
    rw [← split] at draws
    have planned : plan doubles keyColumn sequenceColumn bounds files lookback sequenceIsTemporal =
        .ok {
          lower := some floor
          clamped := false
          candidateFiles := candidates
          examinedFiles := examined
          unboundedBecause := none } := by
      unfold plan
      rw [floor_eq]
      simp only [draws, Option.getD_some, lt_irrefl, decide_false, cond_false]
    have later_member : later ∈ files := by
      rw [split]
      exact List.mem_append_right _ (List.mem_cons_of_mem _ member)
    have reached := complete _ planned rfl later later_member key sequence row among floor rfl
    exact absurd under (not_lt.mpr reached)
  · intro never window planned unclamped file member key sequence row among lower lower_eq
    have wanted : key ∈ bounds.keys := (mem_keys key).mpr among
    unfold plan at planned
    cases floor_eq : floorOf doubles sequenceColumn bounds lookback sequenceIsTemporal with
    | error error => simp [floor_eq] at planned
    | ok floor =>
        simp only [floor_eq] at planned
        cases draws : draw doubles keyColumn sequenceColumn bounds floor none 0 0 files with
        | opened why examined =>
            simp only [draws, Except.ok.injEq] at planned
            subst planned
            cases lower_eq
        | drawn drawn candidates examined =>
            simp only [draws, Except.ok.injEq] at planned
            subst planned
            dsimp only at unclamped lower_eq
            rw [unclamped] at lower_eq
            simp only [cond_false, Option.some.injEq] at lower_eq
            rcases draw_semantics draws (fun _ absent => by cases absent) with ⟨all, _kept⟩ | stopped
            · rcases all file member with excluded | ⟨least, bound, candidate, drawn_eq, under⟩
              · exact absurd wanted (excluded_semantics (holds file member) excluded row)
              · rw [← lower_eq, drawn_eq, Option.getD_some]
                exact le_trans under (candidate_semantics (holds file member) candidate row)
            · obtain ⟨bound, before, stop, after, least, rfl, split, earlier, judged, sinks, drawn_eq⟩ :=
                stopped
              rw [drawn_eq, Option.getD_some] at lower_eq unclamped
              have at_bound : least = bound :=
                le_antisymm sinks (not_lt.mp (of_decide_eq_false unclamped))
              rw [← lower_eq]
              by_contra short
              rw [not_le] at short
              -- Files up to the one at the floor hold no such row.
              have where_ := member
              rw [split] at where_
              rcases List.mem_append.mp where_ with first | rest
              · rcases earlier file first with excluded | ⟨other, candidate, beyond⟩
                · exact absurd wanted (excluded_semantics (holds file member) excluded row)
                · have reached := candidate_semantics (holds file member) candidate row
                  rw [at_bound] at short
                  exact absurd (lt_of_lt_of_le beyond reached) (not_lt.mpr (le_of_lt short))
              · rcases List.mem_cons.mp rest with rfl | behind
                · exact absurd short
                    (not_lt.mpr (candidate_semantics (holds file member) judged row))
                · apply never
                  rw [at_bound] at judged short
                  exact ⟨bound, before, stop, after, floor_eq, split, earlier, judged, file, behind, key,
                    sequence, row, among, short⟩

/-- A merge over such a window inserts no key that is stored with a sequence. -/
theorem LeavesOutNone.not_inserted
    (complete : LeavesOutNone doubles keyColumn sequenceColumn rows bounds files lookback
      sequenceIsTemporal) {window : Window F}
    (planned : plan doubles keyColumn sequenceColumn bounds files lookback sequenceIsTemporal =
      .ok window) (unclamped : window.clamped = false)
    {merge : Upsert.MergePlan (Bound F)} (key_column : merge.columns.key = keyColumn)
    (sequence_column : merge.columns.sequence = sequenceColumn) (lower : merge.lower = window.lower)
    {batch table : List (Row (Bound F))} {source stored : Row (Bound F)}
    (inserts : source ∈ merge.inserted batch table) (among : stored ∈ table)
    (live : ∃ file, file ∈ files ∧ (stored keyColumn, stored sequenceColumn) ∈ file.rows)
    {key sequence : Bound F} (in_batch : key ∈ rows.map Prod.fst) (own : source keyColumn = some key)
    (sequenced : stored sequenceColumn = some sequence) : stored keyColumn ≠ some key := by
  intro same
  obtain ⟨file, member, row⟩ := live
  rw [same, sequenced] at row
  have unmatched := (List.mem_filter.mp inserts).2
  have matched : merge.predicate source stored = true := by
    unfold Upsert.MergePlan.predicate
    rw [key_column, sequence_column, own, same, sequenced, lower]
    simp only [if_true]
    cases bound : window.lower with
    | none => rfl
    | some bound' =>
        exact decide_eq_true (complete window planned unclamped file member key sequence row in_batch
          bound' bound)
  rw [Bool.not_eq_true', List.any_eq_false] at unmatched
  exact unmatched stored among matched

/-! ### A file at the floor -/

/-- Whole numbers in the place of doubles. -/
def wholeDoubles : Doubles Int :=
  { add := fun left right => left + right
    sub := fun left right => left - right
    nextUp := fun value => value + 1
    nextDown := fun value => value - 1
    toInt := fun value => value }

/-- A file of two orders of one time, whose statistics are exact. -/
def fileOf (low high : String) (sequence : Int) : TargetFile Int :=
  { stats := some (some fun column =>
      if column = "id" then ⟨some (.text low), some (.text high)⟩
      else ⟨some (.int sequence), some (.int sequence)⟩)
    rows := [(some (.text low), some (.int sequence)), (some (.text high), some (.int sequence))] }

theorem fileOf_true {low high : String} (ordered : low ≤ high) (sequence : Int) :
    (fileOf low high sequence).True wholeDoubles "id" "changed_at" none none := by
  constructor
  · intro columns recorded
    cases recorded
    constructor
    · intro bound bound_eq value member
      cases bound_eq
      rcases List.mem_cons.mp member with rfl | member
      · exact le_refl _
      · rw [List.mem_singleton.mp member]
        exact (Bound.text_le_text low high).mpr ordered
    · intro bound bound_eq
      cases bound_eq
      refine ⟨.text high, List.prefix_refl _, ?_⟩
      intro value member
      rcases List.mem_cons.mp member with rfl | member
      · exact (Bound.text_le_text low high).mpr ordered
      · exact le_of_eq (List.mem_singleton.mp member)
  · intro columns recorded
    cases recorded
    have same : ∀ value, value ∈ [Bound.int (F := Int) sequence, .int sequence] →
        value = .int sequence := by
      intro value member
      rcases List.mem_cons.mp member with same | member
      · exact same
      · exact List.mem_singleton.mp member
    constructor
    · intro bound bound_eq value member
      cases bound_eq
      exact le_of_eq (same value member).symm
    · intro bound bound_eq
      cases bound_eq
      refine ⟨.int sequence, rfl, ?_⟩
      intro value member
      exact le_of_eq (same value member)

def stored : List (TargetFile Int) :=
  [fileOf "order-5" "order-8" 100, fileOf "order-6" "order-7" 90]

theorem stored_true (file : TargetFile Int) (member : file ∈ stored) :
    file.True wholeDoubles "id" "changed_at" none none := by
  rcases List.mem_cons.mp member with rfl | member
  · exact fileOf_true (by decide) 100
  · rw [List.mem_singleton.mp member]
    exact fileOf_true (by decide) 90

/-- An order restated at 110 that is stored at 90, behind a file of others at 100, and a lookback
of 10. -/
theorem plan_not_complete :
    ∃ bounds : BatchBounds Int,
      BatchBounds.of [(.text "order-7", .int 110)] none none = some bounds ∧
      (∀ file, file ∈ stored → file.True wholeDoubles "id" "changed_at" none none) ∧
      ¬ LeavesOutNone wholeDoubles "id" "changed_at" [(.text "order-7", .int 110)] bounds stored
        (some (.duration 10)) true := by
  refine ⟨_, rfl, stored_true, ?_⟩
  intro complete
  have reached := complete _ rfl (by decide) (fileOf "order-6" "order-7" 90) (by simp [stored])
    (.text "order-7") (.int 90) (List.mem_cons_of_mem _ List.mem_cons_self) (by decide) (.int 100)
    (by rfl)
  exact absurd reached (by decide)

/-- The case of a lookback that reaches further than the floor of the first file. -/
theorem plan_complete_iff_stored :
    ∃ bounds : BatchBounds Int,
      BatchBounds.of [(.text "order-7", .int 110)] none none = some bounds ∧
      (LeavesOutNone wholeDoubles "id" "changed_at" [(.text "order-7", .int 110)] bounds stored
          (some (.duration 15)) true ↔
        ¬ StopsShort wholeDoubles "id" "changed_at" [(.text "order-7", .int 110)] bounds stored
          (some (.duration 15)) true) :=
  ⟨_, rfl, plan_complete_iff rfl stored_true⟩

end Ddi.Merge
