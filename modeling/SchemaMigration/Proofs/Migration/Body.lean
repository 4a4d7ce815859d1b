import SchemaMigration.Proofs.Changelog.Reading
import SchemaMigration.Proofs.Text.Lines

/-!
# SchemaMigration.Proofs.Migration.Body

Which bodies a migration may have, and which bodies hold a statement.

A body is refused when all its semicolons stand side by side, with only blanks around them. A body
holds no statement when nothing but blanks stands between its semicolons. The second is the case
more often: `; ;` is accepted, and the migration has no statement.

* `IsVoid`, `HoldsNoStatement` : the two kinds of bodies.
* `isEmptyBody_normalizedBody_iff` : a body is taken for empty when it is void.
* `Migration.statements_eq_nil_iff` : a migration without statements.
* `Draft.build_body_outcome` : what a body makes of a draft that is otherwise right.
-/

namespace SchemaMigration

open Text

/-- Blanks, semicolons side by side, and blanks again; each of them may be missing. -/
def IsVoid (body : List Char) : Prop :=
  ∃ front count back, body = front ++ List.replicate count ';' ++ back ∧
    isBlankText front = true ∧ isBlankText back = true

/-- The pieces between the semicolons are blank. -/
def HoldsNoStatement (body : List Char) : Prop :=
  ∀ piece ∈ splitOn ';' body, isBlankText piece = true

instance (body : List Char) : Decidable (HoldsNoStatement body) :=
  inferInstanceAs (Decidable (∀ piece ∈ splitOn ';' body, isBlankText piece = true))

variable {body : List Char}

/-! ## Void bodies -/

theorem isBlank_semicolon : isBlank ';' = false := by decide

theorem semicolon_not_mem_of_blank (h : isBlankText body = true) : ';' ∉ body := by
  intro hmem
  have hblank := isBlankText_iff.mp h ';' hmem
  rw [isBlank_semicolon] at hblank
  cases hblank

/-- What is left when the semicolons at the end are dropped, and the semicolons. -/
theorem exists_eq_append_semicolons (body : List Char) :
    ∃ count, body = (body.reverse.dropWhile (· == ';')).reverse ++ List.replicate count ';' := by
  refine ⟨(body.reverse.takeWhile (· == ';')).length, ?_⟩
  have hall : body.reverse.takeWhile (· == ';') =
      List.replicate (body.reverse.takeWhile (· == ';')).length ';' :=
    List.eq_replicate_of_mem fun c hc => by simpa using List.mem_takeWhile_imp hc
  calc body = ((body.reverse.takeWhile (· == ';')) ++
        body.reverse.dropWhile (· == ';')).reverse := by
        rw [List.takeWhile_append_dropWhile, List.reverse_reverse]
    _ = _ := by
        rw [List.reverse_append, hall, List.reverse_replicate, List.length_replicate]

/-- Blanks, and then nothing but semicolons. -/
def IsBare (text : List Char) : Prop :=
  ∃ front count, text = front ++ List.replicate count ';' ∧ isBlankText front = true

theorem isBlankText_dropSemicolons_iff :
    isBlankText (body.reverse.dropWhile (· == ';')) = true ↔ IsBare body := by
  constructor
  · intro h
    obtain ⟨count, hbody⟩ := exists_eq_append_semicolons body
    exact ⟨_, count, hbody, by rwa [isBlankText_reverse]⟩
  · rintro ⟨front, count, rfl, hfront⟩
    have hstays : front.reverse.dropWhile (· == ';') = front.reverse := by
      refine List.dropWhile_eq_self_iff.mpr fun hlen => ?_
      have hmem : front.reverse[0] ∈ front := List.mem_reverse.mp (List.getElem_mem hlen)
      have hne : front.reverse[0] ≠ ';' := fun heq =>
        semicolon_not_mem_of_blank hfront (by rwa [heq] at hmem)
      simpa using hne
    rw [List.reverse_append, List.reverse_replicate,
      List.dropWhile_append_of_pos (by simp), hstays, isBlankText_reverse, hfront]

/-- One more semicolon at the end makes no difference. -/
theorem isBare_append_semicolon : IsBare (body ++ [';']) ↔ IsBare body := by
  constructor
  · rintro ⟨front, count, heq, hfront⟩
    cases count with
    | zero =>
      rw [List.replicate_zero, List.append_nil] at heq
      exact absurd (heq ▸ by simp) (semicolon_not_mem_of_blank hfront)
    | succ count =>
      rw [List.replicate_succ', ← List.append_assoc, List.append_left_inj] at heq
      exact ⟨front, count, heq, hfront⟩
  · rintro ⟨front, count, rfl, hfront⟩
    exact ⟨front, count + 1, by rw [List.replicate_succ', List.append_assoc], hfront⟩

theorem isVoid_iff_trimEnd : IsVoid body ↔ IsBare (trimEnd body) := by
  constructor
  · rintro ⟨front, count, back, rfl, hfront, hback⟩
    rw [trimEnd_append_blank hback]
    cases count with
    | zero =>
      rw [List.replicate_zero, List.append_nil, trimEnd_eq_nil_iff.mpr hfront]
      exact ⟨[], 0, rfl, rfl⟩
    | succ count =>
      have hne : isBlankText [';'] = false := by decide
      refine ⟨front, count + 1, ?_, hfront⟩
      rw [List.replicate_succ', ← List.append_assoc, trimEnd_append_of_not_blank hne]
      rfl
  · rintro ⟨front, count, heq, hfront⟩
    obtain ⟨back, hback, hbody⟩ := exists_eq_trimEnd_append body
    exact ⟨front, count, back, by rw [← heq, ← hbody], hfront, hback⟩

/-- A body is taken for empty exactly if it is void. -/
theorem isEmptyBody_normalizedBody_iff {body : String} :
    isEmptyBody (normalizedBody body) = true ↔ IsVoid body.toList := by
  rw [isEmptyBody, normalizedBody, String.toList_ofList, isBlankText_dropSemicolons_iff,
    isVoid_iff_trimEnd]
  split
  · rfl
  · exact isBare_append_semicolon

/-! ## Bodies without a statement -/

/-- The characters of a text are those of its pieces and the separators. -/
theorem forall_mem_splitOn_iff {sep : Char} {text : List Char} {p : Char → Prop} :
    (∀ piece ∈ splitOn sep text, ∀ c ∈ piece, p c) ↔ ∀ c ∈ text, c = sep ∨ p c := by
  induction text with
  | nil => simp [splitOn]
  | cons first rest ih =>
    by_cases hsep : first = sep
    · simp [splitOn, hsep, ih]
    · obtain ⟨piece, pieces, hrest, hcons⟩ := splitOn_cons_of_ne hsep rest
      rw [hrest] at ih
      rw [hcons, List.forall_mem_cons, List.forall_mem_cons, List.forall_mem_cons, ← ih,
        List.forall_mem_cons, and_assoc, or_iff_right hsep]

theorem holdsNoStatement_iff : HoldsNoStatement body ↔ ∀ c ∈ body, c = ';' ∨ isBlank c = true := by
  simp only [HoldsNoStatement, isBlankText_iff]
  exact forall_mem_splitOn_iff

theorem holdsNoStatement_normalizedBody {body : String} :
    HoldsNoStatement (normalizedBody body).toList ↔ HoldsNoStatement body.toList := by
  obtain ⟨back, hback, hbody⟩ := exists_eq_trimEnd_append body.toList
  have hends : (∀ c ∈ (normalizedBody body).toList, c = ';' ∨ isBlank c = true) ↔
      ∀ c ∈ trimEnd body.toList, c = ';' ∨ isBlank c = true := by
    rw [normalizedBody, String.toList_ofList]
    split
    · rfl
    · rw [List.forall_mem_append]
      simp
  rw [holdsNoStatement_iff, holdsNoStatement_iff, hends, hbody, List.forall_mem_append,
    ← hbody, iff_self_and]
  exact fun _ c hc => .inr (isBlankText_iff.mp hback c hc)

/-- A void body holds no statement. -/
theorem IsVoid.holdsNoStatement (h : IsVoid body) : HoldsNoStatement body := by
  obtain ⟨front, count, back, rfl, hfront, hback⟩ := h
  refine holdsNoStatement_iff.mpr fun c hc => ?_
  rw [List.mem_append, List.mem_append] at hc
  rcases hc with (hc | hc) | hc
  · exact .inr (isBlankText_iff.mp hfront c hc)
  · exact .inl (List.eq_of_mem_replicate hc)
  · exact .inr (isBlankText_iff.mp hback c hc)

/-- A migration has no statements exactly if its body holds none. -/
theorem Migration.statements_eq_nil_iff {m : Migration} :
    m.statements = [] ↔ HoldsNoStatement m.body.toList := by
  rw [Migration.statements, List.filterMap_eq_nil_iff, List.forall_mem_map]
  refine forall₂_congr fun piece _ => ?_
  rw [← trim_eq_nil_iff, ← List.isEmpty_iff]
  split <;> simp_all

/-! ## What a body makes of a draft -/

namespace Draft

/-- What a draft needs beside its body: a title that is a name, an author, and an order in one
direction only. -/
structure RightButForBody (draft : Draft) : Prop where
  title : ∃ name, Name.ofText? (trimmed draft.title) = some name
  author : (trimmed draft.author).isEmpty = false
  order : draft.parameters.runAfter = [] ∨ draft.parameters.runBefore = []

theorem RightButForBody.build_eq {draft : Draft} (h : draft.RightButForBody) :
    (IsVoid draft.body.toList ∧
      draft.build = .error (.invalidMigration draft.title .emptyBody)) ∨
    (¬ IsVoid draft.body.toList ∧ ∃ m, draft.build = .ok m) := by
  obtain ⟨name, hname⟩ := h.title
  have horder : (!draft.parameters.runAfter.isEmpty && !draft.parameters.runBefore.isEmpty) =
      false := by
    rcases h.order with h | h <;> simp [h]
  rw [build, hname]
  by_cases hvoid : IsVoid draft.body.toList
  · refine .inl ⟨hvoid, ?_⟩
    simp [h.author, isEmptyBody_normalizedBody_iff.mpr hvoid]
  · refine .inr ⟨hvoid, ?_⟩
    have hbody : isEmptyBody (normalizedBody draft.body) = false := by
      rw [← Bool.not_eq_true, isEmptyBody_normalizedBody_iff]
      exact hvoid
    simp [h.author, hbody, horder]

/-- A draft that is otherwise right is refused exactly if its body is void, and such a body holds no
statement; it builds a migration exactly if its body is not void. The migration has no statements
exactly if the body holds none; so a body that is accepted and gives no statement has blanks
between its semicolons. -/
theorem build_body_outcome {draft : Draft} (h : draft.RightButForBody) :
    ((∃ problem, draft.build = .error (.invalidMigration draft.title problem)) ↔
      IsVoid draft.body.toList) ∧
    (IsVoid draft.body.toList → HoldsNoStatement draft.body.toList) ∧
    ((∃ m, draft.build = .ok m) ↔ ¬ IsVoid draft.body.toList) ∧
    ∀ m, draft.build = .ok m → (m.statements = [] ↔ HoldsNoStatement draft.body.toList) := by
  refine ⟨?_, fun hvoid => hvoid.holdsNoStatement, ?_, fun m hm => ?_⟩
  · rcases h.build_eq with ⟨hvoid, herr⟩ | ⟨hvoid, m, hok⟩
    · exact iff_of_true ⟨_, herr⟩ hvoid
    · exact iff_of_false (by rw [hok]; nofun) hvoid
  · rcases h.build_eq with ⟨hvoid, herr⟩ | ⟨hvoid, hok⟩
    · exact iff_of_false (by rw [herr]; nofun) (not_not_intro hvoid)
    · exact iff_of_true hok hvoid
  · obtain ⟨-, -, -, -, hbody, -⟩ := of_build hm
    rw [Migration.statements_eq_nil_iff, hbody, holdsNoStatement_normalizedBody]

/-- Two semicolons with a blank between them as a body. -/
def spacedSemicolons : Draft := { author := "alice", title := "t1", body := "; ;" }

theorem rightButForBody_spacedSemicolons : spacedSemicolons.RightButForBody where
  title := ⟨⟨"t1", by decide⟩, by decide⟩
  author := by decide
  order := .inl rfl

theorem not_isVoid_spacedSemicolons : ¬ IsVoid spacedSemicolons.body.toList := by
  rw [← isEmptyBody_normalizedBody_iff]
  decide

/-- Such a body is accepted, and the migration has no statement. -/
theorem build_body_outcome_spacedSemicolons : spacedSemicolons.RightButForBody ∧
    ∃ m, spacedSemicolons.build = .ok m ∧ m.statements = [] := by
  obtain ⟨-, -, hbuilds, hstatements⟩ := build_body_outcome rightButForBody_spacedSemicolons
  obtain ⟨m, hm⟩ := hbuilds.mpr not_isVoid_spacedSemicolons
  exact ⟨rightButForBody_spacedSemicolons, m, hm, (hstatements m hm).mpr (by decide)⟩

/-- A migration that is built need not have a statement, and a body whose pieces are all blank need
not be refused. -/
theorem not_build_statements :
    (¬ ∀ (draft : Draft) (m : Migration), draft.build = .ok m → m.statements ≠ []) ∧
    ¬ ∀ draft : Draft, draft.RightButForBody →
      ((∃ problem, draft.build = .error (.invalidMigration draft.title problem)) ↔
        HoldsNoStatement draft.body.toList) := by
  have hright := rightButForBody_spacedSemicolons
  have hnone : HoldsNoStatement spacedSemicolons.body.toList := by decide
  rcases hright.build_eq with ⟨hvoid, -⟩ | ⟨-, m, hm⟩
  · exact absurd hvoid not_isVoid_spacedSemicolons
  refine ⟨fun h => h _ m hm ?_, fun h => ?_⟩
  · obtain ⟨-, -, -, -, hbody, -⟩ := of_build hm
    rw [Migration.statements_eq_nil_iff, hbody, holdsNoStatement_normalizedBody]
    exact hnone
  · obtain ⟨problem, herr⟩ := (h _ hright).mpr hnone
    rw [hm] at herr
    cases herr

end Draft
end SchemaMigration
