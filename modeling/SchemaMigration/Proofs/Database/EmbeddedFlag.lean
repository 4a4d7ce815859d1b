import SchemaMigration.Proofs.Database.Embedded
import SchemaMigration.Proofs.Database.Tables
import SchemaMigration.Proofs.Sql.Command

/-!
# SchemaMigration.Proofs.Database.EmbeddedFlag

The embedded database has the flag of the lock.

* `Data.flag`, `Data.locked` : the flag in a table, and the contents with the flag set.
* `Statement.read_isLocked`, `Statement.read_acquireLock` : the statements on the flag are taken
  for what they are, in every schema.

`Instance.lockFlag` : they read the flag and set it.
-/

namespace SchemaMigration
namespace Database

open Sql

namespace Data

variable {ref : TableRef} {d d' : Data}

/-- The flag is clear where a row can be updated, and set where there are rows but none of these. -/
def flag (ref : TableRef) (d : Data) : Option Bool :=
  match d.rows? ref with
  | none | some [] => none
  | some rows => some !rows.any isClear

/-- The contents with the flag set. -/
def locked (ref : TableRef) (d : Data) : Data :=
  match d.rows? ref with
  | none => d
  | some rows => (d.updateRows ref rows isClear setFlag).1

theorem isClear_setFlag (row : List Cell) :
    isClear (if isClear row then setFlag row else row) = false := by
  by_cases h : isClear row = true
  · rw [if_pos h]
    unfold isClear at h
    split at h
    · rfl
    · cases h
  · simp [h]

theorem flag_locked (h : flag ref d = some false) : flag ref (locked ref d) = some true := by
  unfold flag at h
  unfold flag locked
  cases hr : d.rows? ref with
  | none => simp [hr] at h
  | some rows =>
    cases rows with
    | nil => simp [hr] at h
    | cons row rows =>
      simp [updateRows, rows?_put_self, isClear_setFlag]

theorem putIn_same {rows : List (List Cell)} {tables : List Table}
    (h : (tables.find? (·.ref = ref)).map (·.rows) = some rows) :
    putIn ref rows tables = tables := by
  induction tables with
  | nil => cases h
  | cons table rest ih =>
    unfold putIn
    by_cases ht : table.ref = ref
    · rw [if_pos ht]
      simp [ht] at h
      subst h ht
      rfl
    · rw [if_neg ht, ih]
      simpa [ht] using h

/-- An update that affects no row changes nothing; one that affects a row sets the flag. -/
theorem perform_setFlag {outcome : Outcome} {recorded : Bool}
    (h : d.perform (.setFlag ref) [] recorded = .ok (d', outcome)) :
    if outcome.affected = 0 then d' = d else flag ref d = some false ∧ d' = locked ref d := by
  obtain ⟨rows, hr, hp⟩ := performOn_of_perform rfl h
  simp only [performOn, updateRows, Except.ok.injEq, Prod.mk.injEq] at hp
  obtain ⟨rfl, rfl⟩ := hp
  by_cases hany : rows.any isClear = true
  · have haffected : (rows.filter isClear).length ≠ 0 := by
      simpa using hany
    rw [if_neg haffected]
    cases rows with
    | nil => cases hany
    | cons row rest =>
      refine ⟨?_, ?_⟩
      · simp only [flag, hr, hany, Bool.not_true]
      · simp only [locked, hr, updateRows]
  · have hnone : ∀ row ∈ rows, isClear row = false := by
      simpa using hany
    have haffected : (rows.filter isClear).length = 0 := by
      simpa using hnone
    have hsame : rows.map (fun row => if isClear row then setFlag row else row) = rows := by
      refine (List.map_congr_left fun row hrow => ?_).trans rows.map_id
      rw [hnone row hrow]
      rfl
    rw [if_pos haffected, hsame, put, putIn_same hr]

theorem perform_readFlag {outcome : Outcome} {recorded : Bool}
    (h : d.perform (.readFlag ref) [] recorded = .ok (d', outcome)) : d' = d := by
  obtain ⟨rows, -, hp⟩ := performOn_of_perform rfl h
  cases hp
  rfl

end Data

namespace Statement

/-- The embedded database takes the statement that reads the flag for what it is, whatever the
schema. -/
theorem read_isLocked (kind : DatabaseKind) (schema : String) :
    read ((Dialect.builtin kind).statement .isLocked schema) =
      .readFlag (ControlTable.lock.inSchema schema) := by
  obtain ⟨lock, htext, hhead, hlimit⟩ : ∃ lock : String,
      (Dialect.builtin kind).statement .isLocked schema =
        "SELECT locked FROM " ++ (ControlTable.lock.inSchema schema).text ++ (" LIMIT 1" ++ lock) ∧
      (" LIMIT 1" ++ lock).toList.head? ≠ some '"' ∧
      Text.startsWith " LIMIT 1".toList (" LIMIT 1" ++ lock).toList = true := by
    cases kind with
    | duckdb => exact ⟨"", String.append_assoc .., by decide, by decide⟩
    | postgres => exact ⟨" FOR UPDATE", String.append_assoc .., by decide, by decide⟩
  have hchars := congrArg String.toList htext
  rw [toList_behind] at hchars
  have hexists : ∀ rest, readTableExists? ("SELECT locked FROM ".toList ++ rest) = none :=
    fun _ => rfl
  have hcreate : ∀ rest, readCreate? ("SELECT locked FROM ".toList ++ rest) = none :=
    fun _ => rfl
  unfold read
  dsimp only
  rw [hchars, hexists, hcreate, readReadFlag?, tableBehind?_append _ _ hhead]
  simp only [hlimit]
  rfl

/-- So it does with the one that sets it. -/
theorem read_acquireLock (kind : DatabaseKind) (schema : String) :
    read ((Dialect.builtin kind).statement .acquireLock schema) =
      .setFlag (ControlTable.lock.inSchema schema) := by
  have htext : (Dialect.builtin kind).statement .acquireLock schema =
      "UPDATE " ++ (ControlTable.lock.inSchema schema).text ++
        " SET locked = true WHERE locked = false" := by
    cases kind <;> rfl
  have hchars := congrArg String.toList htext
  rw [toList_behind] at hchars
  have hexists : ∀ rest, readTableExists? ("UPDATE ".toList ++ rest) = none := fun _ => rfl
  have hcreate : ∀ rest, readCreate? ("UPDATE ".toList ++ rest) = none := fun _ => rfl
  have hflag : ∀ rest, readReadFlag? ("UPDATE ".toList ++ rest) = none := fun _ => rfl
  unfold read
  dsimp only
  rw [hchars, hexists, hcreate, hflag, readUpdate?, tableBehind?_append _ _ (by decide)]
  rfl

end Statement

namespace Instance

variable {scripts : List Script} {n : Nat} {d draft : Data} {others : Nat → Option Data}
  {db db' db'' : Instance} {ref : TableRef} {sql : String}

theorem Alike.trans (h : Alike db db') (h' : Alike db' db'') : Alike db db'' :=
  ⟨h'.data.trans h.data, h'.drafts.trans h.drafts, h'.nextConnection.trans h.nextConnection,
    h'.scripts.trans h.scripts⟩

theorem alike_readRows (db : Instance) (rows : List (List Cell)) :
    Alike db (db.readRows rows).2 := by
  induction rows generalizing db with
  | nil => exact ⟨rfl, rfl, rfl, rfl⟩
  | cons row rest ih =>
    unfold readRows
    have hstruck : Alike db (db.strike "<row>").2 := ⟨rfl, rfl, rfl, rfl⟩
    cases hs : db.strike "<row>" with
    | mk message db₁ =>
      rw [hs] at hstruck
      cases message with
      | some message => exact hstruck.trans (ih db₁)
      | none =>
        have hrest := hstruck.trans (ih db₁)
        dsimp only
        cases hr : db₁.readRows rest with
        | mk reply db₂ =>
          rw [hr] at hrest
          cases reply with
          | error message => exact hrest
          | ok rows => exact hrest

theorem leads_readRows (h : (overview scripts).Open n (some draft) d others db)
    (rows : List (List Cell)) :
    Leads (db.readRows rows) (fun _ => (overview scripts).Open n (some draft) d others)
      ((overview scripts).Spoilt n d others) :=
  (leads_same.mpr ((alike_readRows db rows).open h)).mono (fun _ _ h => h) fun _ h => ⟨_, h⟩

theorem leads_readFlag (h : (overview scripts).Open n (some draft) d others db)
    (hread : Statement.read sql = .readFlag ref) :
    Leads (db.query n sql []) (fun _ => (overview scripts).Open n (some draft) d others)
      ((overview scripts).Spoilt n d others) := by
  have hprepared := (alike_strike db (.prepared n sql) sql).open h
  unfold query
  cases hp : (db.note (.prepared n sql)).strike sql with
  | mk message db₁ =>
    rw [hp] at hprepared
    cases message with
    | some message => exact ⟨_, hprepared⟩
    | none =>
      have hqueried := (alike_strike db₁ (.queried n []) "<query>").open hprepared
      dsimp only
      cases hq : (db₁.note (.queried n [])).strike "<query>" with
      | mk message db₂ =>
        rw [hq] at hqueried
        cases message with
        | some message => exact ⟨_, hqueried⟩
        | none =>
          dsimp only
          split
          · exact leads_readRows hqueried _
          · have hperform := perform_inside hqueried sql [] false
            cases hf : db₂.perform n sql [] false with
            | mk reply db₃ =>
              rw [hf] at hperform
              cases reply with
              | error message => exact ⟨_, hperform⟩
              | ok outcome =>
                obtain ⟨draft', hd, hopen⟩ := hperform
                rw [hread] at hd
                obtain rfl := Data.perform_readFlag hd
                exact leads_readRows hopen outcome.rows

theorem leads_setFlag (h : (overview scripts).Open n (some draft) d others db)
    (hread : Statement.read sql = .setFlag ref)
    (hscripts : ∀ script ∈ scripts,
      Text.occursIn script.trigger.toList sql.toList = true → script.affected = 0) :
    Leads (db.execute n sql [])
      (fun affected db' =>
        if affected = 0 then (overview scripts).Open n (some draft) d others db'
        else Data.flag ref draft = some false ∧
          (overview scripts).Open n (some (draft.locked ref)) d others db')
      ((overview scripts).Spoilt n d others) := by
  have hstruck := (alike_strike db (.executed n sql []) sql).open h
  unfold execute
  cases hs : (db.note (.executed n sql [])).strike sql with
  | mk message db₁ =>
    rw [hs] at hstruck
    cases message with
    | some message => exact ⟨_, hstruck⟩
    | none =>
      dsimp only
      cases hscript : db₁.script? sql with
      | some script =>
        have hmem := List.mem_of_find?_eq_some hscript
        rw [hstruck.valid.scripts] at hmem
        have hoccurs : Text.occursIn script.trigger.toList sql.toList = true :=
          List.find?_some (p := fun script : Script =>
            Text.occursIn script.trigger.toList sql.toList) hscript
        have hzero := hscripts script hmem hoccurs
        show if script.affected = 0 then _ else _
        rw [if_pos hzero]
        exact hstruck
      | none =>
        have hperform := perform_inside hstruck sql [] true
        dsimp only
        cases hf : db₁.perform n sql [] true with
        | mk reply db₂ =>
          rw [hf] at hperform
          cases reply with
          | error message => exact ⟨_, hperform⟩
          | ok outcome =>
            obtain ⟨draft', hd, hopen⟩ := hperform
            rw [hread] at hd
            have hset := Data.perform_setFlag hd
            show if outcome.affected = 0 then _ else _
            split
            · rename_i hzero
              rw [if_pos hzero] at hset
              exact hset ▸ hopen
            · rename_i hzero
              rw [if_neg hzero] at hset
              exact ⟨hset.1, hset.2 ▸ hopen⟩

/-- The embedded database has the flag of the lock in every schema, unless the statement that sets
it is set up to answer that it has updated rows. -/
def lockFlag (kind : DatabaseKind) (schema : String)
    (hscripts : ∀ script ∈ scripts, Text.occursIn script.trigger.toList
      ((Dialect.builtin kind).statement .acquireLock schema).toList = true → script.affected = 0) :
    LockFlag (isolation scripts) ((Dialect.builtin kind).statement .isLocked schema)
      ((Dialect.builtin kind).statement .acquireLock schema) where
  flag := Data.flag (ControlTable.lock.inSchema schema)
  locked := Data.locked (ControlTable.lock.inSchema schema)
  flag_locked := Data.flag_locked
  read h := leads_readFlag h (Statement.read_isLocked kind schema)
  set h := leads_setFlag h (Statement.read_acquireLock kind schema) hscripts

end Instance

end Database
end SchemaMigration
