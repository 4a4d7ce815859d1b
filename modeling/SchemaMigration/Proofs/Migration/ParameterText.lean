import Mathlib.Data.List.Forall2
import SchemaMigration.Migration.Basic
import SchemaMigration.Proofs.Text.Lines

/-!
# SchemaMigration.Proofs.Migration.ParameterText

How a header writes the values of parameters. Every value but an empty list of names and an empty
environment has one written form without blanks, and a parameter accepts nothing else.

* `Parameter.Value.text?` : the written form of a value.
* `readNames?_eq_some_iff` : lists of names are written with commas between them.
* `Parameter.Value.read_eq_ok_iff` : what is written is read back, and nothing else is read.
-/

namespace SchemaMigration

open Text

/-! ## Names and lists of names -/

theorem Name.ofText?_eq_some_iff {text : String} {name : Name} :
    Name.ofText? text = some name ↔ name.text = text := by
  rw [Name.ofText?]
  constructor
  · intro h
    split at h
    · cases h
      rfl
    · cases h
  · rintro rfl
    rw [dif_pos name.isName]

/-- A name holds no blank, no colon and no comma. -/
theorem Name.plain (name : Name) {c : Char} (hc : c ∈ name.text.toList) :
    isBlank c = false ∧ c ≠ ':' ∧ c ≠ ',' := by
  have h := name.isName
  rw [isNameText, Bool.and_eq_true, List.all_eq_true] at h
  simpa [isNameChar, and_assoc] using h.2 c hc

/-- Each item gives one result, or there is none. -/
theorem mapM_eq_some_iff {α β : Type} {f : α → Option β} {items : List α} {results : List β} :
    items.mapM f = some results ↔ List.Forall₂ (fun a b => f a = some b) items results := by
  induction items generalizing results with
  | nil => simp [eq_comm]
  | cons a items ih =>
    simp only [List.mapM_cons, List.forall₂_cons_left_iff, ← ih]
    cases f a with
    | none => simp
    | some b => cases items.mapM f <;> simp [eq_comm]

/-- Names with commas between them. -/
def namesText (names : List Name) : String :=
  String.ofList (joinWith [','] (names.map (·.text.toList)))

theorem mem_joinWith {sep : List Char} {pieces : List (List Char)} {c : Char}
    (h : c ∈ joinWith sep pieces) : c ∈ sep ∨ ∃ piece ∈ pieces, c ∈ piece := by
  induction pieces with
  | nil => cases h
  | cons piece rest ih =>
    cases rest with
    | nil => exact .inr ⟨piece, List.mem_cons_self, h⟩
    | cons next more =>
      rw [joinWith_cons (List.cons_ne_nil next more), List.mem_append, List.mem_append] at h
      rcases h with (h | h) | h
      · exact .inr ⟨piece, List.mem_cons_self, h⟩
      · exact .inl h
      · exact (ih h).imp_right fun ⟨other, ho, hc⟩ => ⟨other, List.mem_cons_of_mem piece ho, hc⟩

theorem namesText_plain {names : List Name} :
    ∀ c ∈ (namesText names).toList, isBlank c = false := by
  intro c hc
  rw [namesText, String.toList_ofList] at hc
  rcases mem_joinWith hc with hc | ⟨piece, hp, hc⟩
  · rw [List.mem_singleton.mp hc]
    decide
  · obtain ⟨name, -, rfl⟩ := List.mem_map.mp hp
    exact (name.plain hc).1

/-- Names are read from a text without blanks exactly as they are written. -/
theorem readNames?_eq_some_iff {text : String} (hplain : ∀ c ∈ text.toList, isBlank c = false)
    {names : List Name} :
    Parameter.readNames? text = some names ↔ names ≠ [] ∧ namesText names = text := by
  have htrim : (splitOn ',' text.toList).map trim = splitOn ',' text.toList :=
    (List.map_congr_left fun piece hp =>
      trim_of_no_blank fun c hc => hplain c (mem_of_mem_splitOn hp hc)).trans (List.map_id _)
  have hpieces : Parameter.readNames? text =
      (splitOn ',' text.toList).mapM fun piece => Name.ofText? (String.ofList piece) := by
    conv_rhs => rw [← htrim, List.mapM_map]
    rfl
  have hread : Parameter.readNames? text = some names ↔
      splitOn ',' text.toList = names.map (·.text.toList) := by
    have hname : ∀ (piece : List Char) (name : Name),
        Name.ofText? (String.ofList piece) = some name ↔ piece = name.text.toList := fun _ _ => by
      rw [Name.ofText?_eq_some_iff, ← String.toList_inj, String.toList_ofList, eq_comm]
    rw [hpieces, mapM_eq_some_iff, ← List.forall₂_eq_eq_eq, List.forall₂_map_right_iff]
    simp only [hname]
  rw [hread, namesText, ← String.toList_inj, String.toList_ofList]
  constructor
  · intro h
    refine ⟨?_, by rw [← h, joinWith_splitOn]⟩
    rintro rfl
    exact splitOn_ne_nil ',' text.toList h
  · rintro ⟨hne, htext⟩
    rw [← htext]
    refine splitOn_joinWith (by simpa using hne) fun piece hp hmem => ?_
    obtain ⟨name, -, rfl⟩ := List.mem_map.mp hp
    exact (name.plain hmem).2.2 rfl

/-! ## Values -/

def flagText (flag : Bool) : String := if flag then "true" else "false"

namespace Parameter

/-- How a value is written; an empty list of names and an empty environment are not. -/
def Value.text? : Value → Option String
  | .run modifier => some modifier.text
  | .ignore flag | .transactional flag | .failFast flag => some (flagText flag)
  | .runAfter names | .runBefore names => if names = [] then none else some (namesText names)
  | .environment name => name.filter (!·.isEmpty)

theorem ofName?_name (p : Parameter) : ofName? p.name = some p := by cases p <;> decide

theorem name_of_ofName? {name : String} {p : Parameter} (h : ofName? name = some p) :
    p.name = name := by simpa using List.find?_some h

variable {text : String}

theorem readFlag?_eq_some_iff {flag : Bool} :
    readFlag? text = some flag ↔ flagText flag = text := by
  rw [readFlag?]
  by_cases htrue : text = "true"
  · subst htrue
    cases flag <;> decide
  · by_cases hfalse : text = "false"
    · subst hfalse
      cases flag <;> decide
    · rw [if_neg htrue, if_neg hfalse]
      cases flag <;> simp [flagText, eq_comm, htrue, hfalse]

theorem ofText?_eq_some_iff {modifier : RunModifier} :
    RunModifier.ofText? text = some modifier ↔ modifier.text = text := by
  constructor
  · intro h
    simpa using List.find?_some h
  · rintro rfl
    cases modifier <;> decide

variable (hplain : ∀ c ∈ text.toList, isBlank c = false)
include hplain

theorem readTrimmed?_eq_some_iff {p : Parameter} {value : Value} :
    p.readTrimmed? text = some value ↔ value.parameter = p ∧ value.text? = some text := by
  cases p <;> cases value <;>
    simp [readTrimmed?, Value.parameter, Value.text?, ofText?_eq_some_iff, readFlag?_eq_some_iff,
      readNames?_eq_some_iff hplain]
  case environment.environment name =>
    rw [and_comm, eq_comm]

/-- What a header's `name:text` gives, for a text without blanks: the value of the parameter with
that name that is written so. -/
theorem Value.read_eq_ok_iff {name : String} {value : Value} :
    Value.read name text = .ok value ↔ value.parameter.name = name ∧ value.text? = some text := by
  have htrim : trimmed text = text := by
    rw [trimmed, trim_of_no_blank hplain, String.ofList_toList]
  rw [Value.read, htrim]
  constructor
  · intro h
    split at h
    · cases h
    · rename_i p hp
      split at h
      · cases h
      · rename_i hread
        cases h
        obtain ⟨rfl, htext⟩ := (readTrimmed?_eq_some_iff hplain).mp hread
        exact ⟨name_of_ofName? hp, htext⟩
  · rintro ⟨rfl, htext⟩
    simp only [ofName?_name, (readTrimmed?_eq_some_iff hplain).mpr ⟨rfl, htext⟩]

end Parameter
end SchemaMigration
