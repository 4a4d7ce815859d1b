import Mathlib.Data.List.Induction
import SchemaMigration.Changelog.Header
import SchemaMigration.Proofs.Migration.ParameterText
import SchemaMigration.Proofs.Text.Cut
import SchemaMigration.Proofs.Text.Words

/-!
# SchemaMigration.Proofs.Changelog.HeaderLine

The header line of a migration: how it is written, and that exactly such lines are read.

* `Setting` : what one token of a header sets, and how the token is written.
* `HeaderLine` : the lines that give an author, a title and some settings.
* `Header.split?_eq_some_iff`, `Header.applyTokens_eq_ok_iff` : the two steps of the reading.
* `Header.read_headerLine` : a line is read exactly if it is written so, and the last setting counts.
-/

namespace SchemaMigration

open Text

/-! ## Settings -/

/-- What one token of a header sets: a parameter, or a free parameter. -/
inductive Setting where
  | parameter (value : Parameter.Value)
  | free (key text : String)

namespace Setting

/-- How a setting is written, if it can be. -/
def token? : Setting → Option (List Char)
  | parameter value =>
    value.text?.map fun text => value.parameter.name.toList ++ ':' :: text.toList
  | free key text =>
    if ':' ∈ key.toList then none else some ('#' :: key.toList ++ ':' :: text.toList)

def apply (draft : Draft) : Setting → Draft
  | parameter value => draft.withParameter value
  | free key text => draft.withUserParameter key text

/-- The value that is set for a parameter. -/
def valueFor? (p : Parameter) : Setting → Option Parameter.Value
  | parameter value => if value.parameter = p then some value else none
  | free _ _ => none

/-- The text that is set for a free parameter. -/
def textFor? (key : String) : Setting → Option String
  | parameter _ => none
  | free other text => if other = key then some text else none

end Setting

/-- What an author is written with: no blank, and no colon, which ends it. -/
structure IsAuthor (author : List Char) : Prop where
  word : IsWord author
  noColon : ':' ∉ author

/-- The characters of an author's name are those before the colon. -/
theorem IsAuthor.forall_mem {author : List Char} (h : IsAuthor author) :
    ∀ c ∈ author, (!isBlank c && c != ':') = true := by
  intro c hc
  have hne : c ≠ ':' := fun heq => h.noColon (heq ▸ hc)
  simp [h.word.plain c hc, hne]

/-- A line of the keyword, the author, a colon, the title and tokens. Blanks stand between the
keyword and the author and before each token, and perhaps at the end; behind the title no line feed
is among them. -/
structure HeaderLine (line : List Char) (author title : String) (settings : List Setting) :
    Prop where
  isAuthor : IsAuthor author.toList
  isTitle : IsWord title.toList
  laidOut : ∃ gap rest tokens, line = Header.keyword ++ gap ++ author.toList ++
      ':' :: (title.toList ++ rest) ∧ gap ≠ [] ∧ isBlankText gap = true ∧ '\n' ∉ rest ∧
    Spaced tokens rest ∧ List.Forall₂ (fun s token => Setting.token? s = some token) settings tokens

/-! ## Author, title and the rest -/

namespace Header

variable {line gap author title rest : List Char} {file : Path}

theorem split?_of_parts (hne : gap ≠ []) (hgap : isBlankText gap = true)
    (hauthor : IsAuthor author) (htitle : IsWord title) (hrest : AtBreak rest)
    (hfeed : '\n' ∉ rest) :
    split? (keyword ++ gap ++ author ++ ':' :: (title ++ rest)) = some (author, title, rest) := by
  obtain ⟨blank, gap, rfl⟩ := List.exists_cons_of_ne_nil hne
  obtain ⟨first, author, rfl⟩ := List.exists_cons_of_ne_nil hauthor.word.ne_nil
  have hblank : isBlank blank = true := isBlankText_iff.mp hgap blank List.mem_cons_self
  have hfirst : isBlank first = false := hauthor.word.plain first List.mem_cons_self
  have hstart : trimStart (blank :: gap ++ (first :: author ++ ':' :: (title ++ rest))) =
      first :: author ++ ':' :: (title ++ rest) := by
    rw [trimStart_blank_append hgap, List.cons_append, trimStart,
      List.dropWhile_cons_of_neg (by simp [hfirst])]
  have htake : (first :: author ++ ':' :: (title ++ rest)).takeWhile
      (fun c => !isBlank c && c != ':') = first :: author := by
    rw [List.takeWhile_append_of_pos hauthor.forall_mem, List.takeWhile_cons_of_neg (by simp),
      List.append_nil]
  have hdrop : (first :: author ++ ':' :: (title ++ rest)).dropWhile
      (fun c => !isBlank c && c != ':') = ':' :: (title ++ rest) := by
    rw [List.dropWhile_append_of_pos hauthor.forall_mem, List.dropWhile_cons_of_neg (by simp)]
  rw [List.append_assoc, List.append_assoc, split?, dropStart?_append]
  simp only [hstart, htake, hdrop, takeWhile_word_append htitle.plain hrest,
    dropWhile_word_append htitle.plain hrest]
  simp [hblank, htitle.ne_nil, hfeed]

theorem split?_eq_some_iff : split? line = some (author, title, rest) ↔
    ∃ gap, line = keyword ++ gap ++ author ++ ':' :: (title ++ rest) ∧ gap ≠ [] ∧
      isBlankText gap = true ∧ IsAuthor author ∧ IsWord title ∧ AtBreak rest ∧ '\n' ∉ rest := by
  constructor
  · intro h
    rw [split?] at h
    split at h
    · cases h
    rename_i afterKeyword hkeyword
    split at h
    · cases h
    rename_i hgap
    dsimp only at h
    split at h
    · rename_i afterColon hcolon
      split at h
      · cases h
      rename_i hparts
      cases h
      have hline := dropStart?_eq_some hkeyword
      simp only [Bool.or_eq_true, not_or, Bool.not_eq_true, List.isEmpty_eq_false_iff] at hparts
      refine ⟨afterKeyword.takeWhile isBlank, ?_, by simpa using hgap,
        isBlankText_iff.mpr fun _ => List.mem_takeWhile_imp, ⟨⟨hparts.1.1, ?_⟩, ?_⟩,
        ⟨hparts.1.2, ?_⟩, atBreak_dropWhile afterColon, by simpa using hparts.2⟩
      · rw [List.takeWhile_append_dropWhile, ← hcolon, List.append_assoc,
          List.takeWhile_append_dropWhile, List.append_assoc, trimStart,
          List.takeWhile_append_dropWhile, hline]
      · intro c hc
        have hauthor := List.mem_takeWhile_imp hc
        simp only [Bool.and_eq_true, Bool.not_eq_true'] at hauthor
        exact hauthor.1
      · intro hmem
        simpa using List.mem_takeWhile_imp hmem
      · intro c hc
        simpa using List.mem_takeWhile_imp hc
    · cases h
  · rintro ⟨gap, rfl, hne, hgap, hauthor, htitle, hrest, hfeed⟩
    exact split?_of_parts hne hgap hauthor htitle hrest hfeed

/-! ## Tokens -/

theorem applyToken_parameter {p : Parameter} {text : List Char} {value : Parameter.Value}
    (h : Parameter.Value.read p.name (String.ofList text) = .ok value) (draft : Draft) :
    applyToken file draft (p.name.toList ++ ':' :: text) = .ok (draft.withParameter value) := by
  have hcolon : ':' ∉ p.name.toList := by cases p <;> decide
  have hsharp : '#' ∉ p.name.toList := by cases p <;> decide
  rw [applyToken, cutFirst?_append hcolon]
  dsimp only
  split
  · rename_i userKey hname
    exact absurd (hname ▸ List.mem_cons_self) hsharp
  · simp only [String.ofList_toList, h]

theorem applyToken_free {key : List Char} (hkey : ':' ∉ key) (text : List Char) (draft : Draft) :
    applyToken file draft ('#' :: key ++ ':' :: text) =
      .ok (draft.withUserParameter (String.ofList key) (String.ofList text)) := by
  have hmem : ':' ∉ '#' :: key := by simpa using hkey
  rw [applyToken, cutFirst?_append hmem]
  rfl

/-- A token is accepted exactly if it is the written form of a setting, and then it sets that. -/
theorem applyToken_eq_ok_iff {token : List Char} (hplain : ∀ c ∈ token, isBlank c = false)
    {draft draft' : Draft} : applyToken file draft token = .ok draft' ↔
      ∃ s : Setting, s.token? = some token ∧ draft' = s.apply draft := by
  constructor
  · intro h
    rw [applyToken] at h
    split at h
    · cases h
    rename_i key text hcut
    obtain ⟨rfl, hkey⟩ := cutFirst?_eq_some_iff.mp hcut
    split at h
    · rename_i userKey
      cases h
      refine ⟨.free (String.ofList userKey) (String.ofList text), ?_, rfl⟩
      have huser : ':' ∉ userKey := fun hmem => hkey (List.mem_cons_of_mem _ hmem)
      simp [Setting.token?, huser]
    · split at h
      · cases h
      rename_i value hvalue
      cases h
      have htext : ∀ c ∈ (String.ofList text).toList, isBlank c = false := by
        rw [String.toList_ofList]
        exact fun c hc => hplain c (by simp [hc])
      obtain ⟨hname, hwritten⟩ := (Parameter.Value.read_eq_ok_iff htext).mp hvalue
      refine ⟨.parameter value, ?_, rfl⟩
      rw [Setting.token?, hwritten, Option.map_some, hname, String.toList_ofList,
        String.toList_ofList]
  · rintro ⟨s, hs, rfl⟩
    cases s with
    | parameter value =>
      obtain ⟨text, htext, rfl⟩ := Option.map_eq_some_iff.mp hs
      have hread : Parameter.Value.read value.parameter.name text = .ok value :=
        (Parameter.Value.read_eq_ok_iff fun c hc => hplain c (by simp [hc])).mpr ⟨rfl, htext⟩
      rw [← String.ofList_toList (s := text)] at hread
      exact applyToken_parameter hread draft
    | free key text =>
      rw [Setting.token?] at hs
      split at hs
      · cases hs
      rename_i hkey
      cases hs
      rw [applyToken_free hkey, String.ofList_toList, String.ofList_toList]
      rfl

theorem applyTokens_eq_ok_iff {tokens : List (List Char)} (hwords : ∀ token ∈ tokens, IsWord token)
    {draft draft' : Draft} : applyTokens file draft tokens = .ok draft' ↔
      ∃ settings, List.Forall₂ (fun s token => Setting.token? s = some token) settings tokens ∧
        draft' = settings.foldl Setting.apply draft := by
  induction tokens generalizing draft with
  | nil =>
    simp only [applyTokens, List.forall₂_nil_right_iff, exists_eq_left, List.foldl_nil,
      Except.ok.injEq, eq_comm]
  | cons token rest ih =>
    obtain ⟨htoken, hrest⟩ := List.forall_mem_cons.mp hwords
    have happly : ∀ next, applyToken file draft token = .ok next ↔
        ∃ s, Setting.token? s = some token ∧ next = Setting.apply draft s :=
      fun _ => applyToken_eq_ok_iff htoken.plain
    constructor
    · intro h
      rw [applyTokens] at h
      split at h
      · cases h
      rename_i next hnext
      obtain ⟨s, hs, rfl⟩ := (happly next).mp hnext
      obtain ⟨settings, hall, rfl⟩ := (ih hrest).mp h
      exact ⟨s :: settings, .cons hs hall, rfl⟩
    · rintro ⟨settings, hall, rfl⟩
      obtain ⟨s, others, hs, hothers, rfl⟩ := List.forall₂_cons_right_iff.mp hall
      rw [applyTokens, (happly _).mpr ⟨s, hs, rfl⟩]
      exact (ih hrest).mpr ⟨others, hothers, rfl⟩

end Header

/-! ## What the settings come to -/

theorem UserParameters.get?_insert (parameters : UserParameters) (key value other : String) :
    (parameters.insert key value).get? other =
      if key = other then some value else parameters.get? other := by
  rw [insert, get?, get?]
  fun_induction insertSorted key value parameters.entries <;> grind

/-- A draft with an author and a title on which settings were made one after the other. -/
structure Draft.SetBy (draft : Draft) (author title : String) (settings : List Setting) : Prop where
  author : draft.author = author
  title : draft.title = title
  parameter : ∀ p, draft.parameters.get p =
    ((settings.filterMap (Setting.valueFor? p)).getLast?).getD p.default
  free : ∀ key, draft.userParameters.get? key =
    (settings.filterMap (Setting.textFor? key)).getLast?

theorem Draft.setBy_foldl (author title : String) (settings : List Setting) :
    (settings.foldl Setting.apply { author, title }).SetBy author title settings := by
  -- from the last setting on, which is the one that counts
  induction settings using List.reverseRecOn with
  | nil => exact ⟨rfl, rfl, fun p => by cases p <;> rfl, fun key => rfl⟩
  | append_singleton settings s ih =>
    rw [List.foldl_concat]
    cases s with
    | parameter value =>
      refine ⟨ih.author, ih.title, fun p => ?_, fun key => ?_⟩
      · by_cases hp : value.parameter = p
        · subst hp
          simp [Setting.apply, Setting.valueFor?, Draft.withParameter, Parameters.get_set_self]
        · simpa [Setting.apply, Setting.valueFor?, Draft.withParameter, hp,
            Parameters.get_set_of_ne _ hp] using ih.parameter p
      · simpa [Setting.apply, Setting.textFor?, Draft.withParameter] using ih.free key
    | free key text =>
      refine ⟨ih.author, ih.title, fun p => ?_, fun other => ?_⟩
      · simpa [Setting.apply, Setting.valueFor?, Draft.withUserParameter] using ih.parameter p
      · by_cases hkey : key = other
        · simp [Setting.apply, Setting.textFor?, Draft.withUserParameter, hkey,
            UserParameters.get?_insert]
        · simpa [Setting.apply, Setting.textFor?, Draft.withUserParameter, hkey,
            UserParameters.get?_insert] using ih.free other

namespace Header

/-- A header line is read exactly if it is written as one. It gives its author and its title, for
each parameter the value of the last token that sets it, or else the default, and for each free
parameter the text of the last token that sets it. What a parameter accepts, from a text without
blanks, are its values as they are written, and names with commas between them come back as the same
names. -/
theorem read_headerLine (file : Path) (line : String) :
    (∀ author title settings, HeaderLine line.toList author title settings →
      ∃ draft, read file line = .ok draft ∧ draft.SetBy author title settings) ∧
    (∀ draft, read file line = .ok draft →
      ∃ author title settings, HeaderLine line.toList author title settings) ∧
    (∀ (p : Parameter) (text : String) (value : Parameter.Value),
      (∀ c ∈ text.toList, isBlank c = false) →
      (Parameter.Value.read p.name text = .ok value ↔
        value.parameter = p ∧ value.text? = some text)) ∧
    ∀ names, names ≠ [] →
      Parameter.Value.read Parameter.runAfter.name (namesText names) = .ok (.runAfter names) ∧
      Parameter.Value.read Parameter.runBefore.name (namesText names) = .ok (.runBefore names) := by
  refine ⟨?_, ?_, ?_, fun names hne => ⟨?_, ?_⟩⟩
  · rintro author title settings ⟨hauthor, htitle, gap, rest, tokens, hline, hne, hgap, hfeed,
      hspaced, hall⟩
    have hsplit := split?_eq_some_iff.mpr
      ⟨gap, hline, hne, hgap, hauthor, htitle, hspaced.atBreak, hfeed⟩
    have htokens : applyTokens file { author, title } tokens =
        .ok (settings.foldl Setting.apply { author, title }) :=
      (applyTokens_eq_ok_iff hspaced.isWord).mpr ⟨settings, hall, rfl⟩
    refine ⟨_, ?_, Draft.setBy_foldl author title settings⟩
    simp only [read, hsplit, String.ofList_toList, hspaced.words_eq, htokens]
  · intro draft h
    rw [read] at h
    split at h
    · cases h
    rename_i author title rest hsplit
    obtain ⟨gap, hline, hne, hgap, hauthor, htitle, hbreak, hfeed⟩ := split?_eq_some_iff.mp hsplit
    have hspaced := spaced_words hbreak
    obtain ⟨settings, hall, -⟩ := (applyTokens_eq_ok_iff hspaced.isWord).mp h
    refine ⟨String.ofList author, String.ofList title, settings, ?_, ?_, ?_⟩
    · rwa [String.toList_ofList]
    · rwa [String.toList_ofList]
    · rw [String.toList_ofList, String.toList_ofList]
      exact ⟨gap, rest, words rest, hline, hne, hgap, hfeed, hspaced, hall⟩
  · intro p text value hplain
    rw [Parameter.Value.read_eq_ok_iff hplain]
    refine and_congr_left' ⟨fun h => ?_, fun h => h ▸ rfl⟩
    exact Option.some.inj (by rw [← Parameter.ofName?_name, h, Parameter.ofName?_name])
  all_goals
    refine (Parameter.Value.read_eq_ok_iff namesText_plain).mpr ⟨rfl, ?_⟩
    rw [Parameter.Value.text?, if_neg hne]

/-- A header on which the first parameter is set twice, with a tabulator before the last token. -/
def usersHeader : String :=
  "--migration alice:create_users run:onchange runAfter:grants,teams #ticket:OPS-1\trun:always"

def usersSettings : List Setting :=
  [.parameter (.run .onChange),
    .parameter (.runAfter [⟨"grants", by decide⟩, ⟨"teams", by decide⟩]),
    .free "ticket" "OPS-1", .parameter (.run .always)]

theorem headerLine_users : HeaderLine usersHeader.toList "alice" "create_users" usersSettings where
  isAuthor := ⟨by decide +kernel, by decide +kernel⟩
  isTitle := by decide +kernel
  laidOut := by
    let rest := [' '] ++ "run:onchange".toList ++ ([' '] ++ "runAfter:grants,teams".toList ++
      ([' '] ++ "#ticket:OPS-1".toList ++ (['\t'] ++ "run:always".toList ++ [])))
    have hspaced : Spaced ["run:onchange".toList, "runAfter:grants,teams".toList,
        "#ticket:OPS-1".toList, "run:always".toList] rest :=
      .cons (by decide) rfl (by decide +kernel) (.cons (by decide) rfl (by decide +kernel)
        (.cons (by decide) rfl (by decide +kernel) (.cons (by decide) rfl (by decide +kernel)
          (.nil rfl))))
    refine ⟨[' '], rest, _, by decide, by decide, by decide, by decide, hspaced, ?_⟩
    exact .cons rfl (.cons rfl (.cons rfl (.cons rfl .nil)))

/-- The later value for the first parameter counts. -/
theorem read_headerLine_users : HeaderLine usersHeader.toList "alice" "create_users" usersSettings ∧
    ∃ draft, read ⟨"users.sql"⟩ usersHeader = .ok draft ∧
      draft.author = "alice" ∧ draft.title = "create_users" ∧
      draft.parameters.get .run = .run .always ∧
      draft.parameters.get .runAfter = .runAfter [⟨"grants", by decide⟩, ⟨"teams", by decide⟩] ∧
      draft.parameters.get .environment = .environment none ∧
      draft.userParameters.get? "ticket" = some "OPS-1" := by
  obtain ⟨draft, hok, hset⟩ :=
    (read_headerLine ⟨"users.sql"⟩ usersHeader).1 _ _ _ headerLine_users
  exact ⟨headerLine_users, draft, hok, hset.author, hset.title, hset.parameter .run,
    hset.parameter .runAfter, hset.parameter .environment, hset.free "ticket"⟩

end Header
end SchemaMigration
