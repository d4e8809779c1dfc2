import TakaFlow.Lib.Csv
import TakaFlow.StatementFile

/-!
# The statement as text

Whatever names and notes there are, the rows of a statement are read back field by field, and no
field is a formula.
-/

namespace TakaFlow

open Csv

/-- What a reader sees of a value. -/
def shownField (value : Option String) : String :=
  match value with
  | none => ""
  | some value => if isDangerous value then "'" ++ value else value

lemma csvField_some {value : String} (h : value ≠ "") : csvField (some value) =
    if (escape (shownField (some value)).toList).any isSpecial then
      "\"" ++ String.ofList (escape (shownField (some value)).toList) ++ "\""
    else String.ofList (escape (shownField (some value)).toList) := by
  rw [csvField, if_neg h]
  rfl

/-- Nothing is escaped where nothing is special. -/
lemma escape_of_any {f : Field} (h : (escape f).any isSpecial = false) :
    escape f = f ∧ ∀ c ∈ f, isSpecial c = false := by
  induction f with
  | nil => exact ⟨rfl, nofun⟩
  | cons c f ih =>
    rw [escape, List.flatMap_cons, List.any_append, Bool.or_eq_false_iff] at h
    obtain ⟨hc, hf⟩ := h
    obtain ⟨hescape, hplain⟩ := ih hf
    have hquote : c ≠ '"' := by
      rintro rfl
      exact absurd hc (by decide)
    rw [if_neg hquote] at hc
    refine ⟨?_, fun d hd => ?_⟩
    · rw [escape, List.flatMap_cons, if_neg hquote]
      exact congrArg (c :: ·) hescape
    · obtain rfl | hd := List.mem_cons.mp hd
      · simpa using hc
      · exact hplain d hd

lemma fieldText_empty : FieldText "".toList "".toList := by
  rw [String.toList_empty]
  exact .plain fun c hc => absurd hc List.not_mem_nil

/-- Every field is written as the grammar has it. -/
lemma fieldText_csvField (value : Option String) :
    FieldText (shownField value).toList (csvField value).toList := by
  cases value with
  | none => exact fieldText_empty
  | some value =>
    by_cases hempty : value = ""
    · have hsafe : isDangerous "" = false := by
        rw [isDangerous, String.toList_empty]
        rfl
      rw [hempty, csvField, if_pos rfl, shownField, hsafe, if_neg Bool.false_ne_true]
      exact fieldText_empty
    · rw [csvField_some hempty]
      split
      · rw [String.toList_append, String.toList_append, String.toList_ofList, String.toList_ofList]
        exact .quoted
      · rename_i hplain
        obtain ⟨hescape, hspecial⟩ := escape_of_any (Bool.eq_false_of_not_eq_true hplain)
        rw [String.toList_ofList, hescape]
        exact .plain hspecial

/-- Every row is written as the grammar has it. -/
lemma recordText_csvRow (entry : HistoryEntry) :
    RecordText ((statementFields entry).map fun value => (shownField value).toList)
      (csvRow entry).toList := by
  have hfields : List.Forall₂ FieldText
      ((statementFields entry).map fun value => (shownField value).toList)
      (((statementFields entry).map csvField).map String.toList) := by
    rw [List.map_map, List.forall₂_map_left_iff, List.forall₂_map_right_iff, List.forall₂_same]
    exact fun value _ => fieldText_csvField value
  rw [csvRow, String.toList_append, String.toList_intercalate]
  exact recordText_intercalate (List.cons_ne_nil _ _) hfields

lemma isDangerous_shownField (value : Option String) : isDangerous (shownField value) = false := by
  cases value with
  | none => rfl
  | some value =>
    rw [shownField]
    split
    · rw [isDangerous, String.toList_append]
      rfl
    · rename_i hsafe
      exact Bool.eq_false_of_not_eq_true hsafe

/-- The rows of a statement are read back, and no field of them is a formula. -/
theorem statement_read (entries : List HistoryEntry) :
    records (String.join (entries.map csvRow)) =
      some (entries.map fun entry => (statementFields entry).map shownField) ∧
    ∀ entry ∈ entries, (statementFields entry).length = 10 ∧
      ∀ value ∈ statementFields entry, isDangerous (shownField value) = false := by
  refine ⟨?_, fun entry _ => ⟨rfl, fun value _ => isDangerous_shownField value⟩⟩
  have hrows : List.Forall₂ RecordText
      (entries.map fun entry => (statementFields entry).map fun value => (shownField value).toList)
      (entries.map fun entry => (csvRow entry).toList) := by
    rw [List.forall₂_map_left_iff, List.forall₂_map_right_iff, List.forall₂_same]
    exact fun entry _ => recordText_csvRow entry
  have hjoin : (String.join (entries.map csvRow)).toList =
      (entries.map fun entry => (csvRow entry).toList).flatten := by
    rw [String.toList_join, List.flatMap_map, List.flatMap_def]
  rw [records, hjoin, read_file hrows, Option.map_some, List.map_map]
  refine congrArg some (List.map_congr_left fun entry _ => ?_)
  rw [Function.comp_apply, List.map_map]
  exact List.map_congr_left fun value _ => String.ofList_toList

end TakaFlow
