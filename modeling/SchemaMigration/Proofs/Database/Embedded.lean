import SchemaMigration.Proofs.Database.Isolation

/-!
# SchemaMigration.Proofs.Database.Embedded

The embedded database has transactions.

* `Instance.overview` : its contents, and the private copies as what the transactions see.
* `Instance.perform_inside`, `Instance.perform_outside` : a statement works on what its connection
  sees.
* `Instance.leads_batch` : a text that goes to a connection, whether it fails or not.

`Instance.isolation` : calls that are set up to fail, and statements that are set up to answer, do
not keep it from having them.
-/

namespace SchemaMigration
namespace Database

open Sql

namespace Instance

/-- The private copies are those of connections that were made, and some statements are set up to
answer. -/
structure Orderly (scripts : List Script) (db : Instance) : Prop where
  drafts : ∀ draft ∈ db.drafts, draft.1 < db.nextConnection
  scripts : db.scripts = scripts

def overview (scripts : List Script) : View Instance Data where
  Valid := Orderly scripts
  Made db n := n < db.nextConnection
  contents := data
  drafts db n := db.drafts.lookup n

variable {scripts : List Script} {n : Nat} {own : Option Data} {d draft : Data}
  {others : Nat → Option Data} {db db' : Instance}

/-- The parts of an instance that the view shows. -/
structure Alike (db db' : Instance) : Prop where
  data : db'.data = db.data
  drafts : db'.drafts = db.drafts
  nextConnection : db'.nextConnection = db.nextConnection
  scripts : db'.scripts = db.scripts

theorem Alike.open (h : Alike db db') (ho : (overview scripts).Open n own d others db) :
    (overview scripts).Open n own d others db' := by
  obtain ⟨hvalid, hmade, hcontents, hfree, hdrafts⟩ := ho
  refine ⟨⟨?_, h.scripts.trans hvalid.scripts⟩, ?_, h.data.trans hcontents, hfree, ?_⟩
  · rw [h.drafts, h.nextConnection]
    exact hvalid.drafts
  · show n < db'.nextConnection
    rw [h.nextConnection]
    exact hmade
  · show (db'.drafts.lookup ·) = _
    rw [h.drafts]
    exact hdrafts

theorem alike_strike (db : Instance) (event : Event) (text : String) :
    Alike db ((db.note event).strike text).2 := ⟨rfl, rfl, rfl, rfl⟩

theorem lookup_cons (n : Nat) (d : Data) (drafts : List (Nat × Data)) :
    (((n, d) :: drafts).lookup ·) = Function.update (drafts.lookup ·) n (some d) := by
  funext m
  by_cases h : m = n
  · simp [h]
  · simp [List.lookup_cons, beq_false_of_ne h, Function.update_of_ne h]

theorem lookup_forget (n : Nat) (drafts : List (Nat × Data)) :
    ((drafts.filter (·.1 ≠ n)).lookup ·) = Function.update (drafts.lookup ·) n none := by
  induction drafts with
  | nil => simp
  | cons draft rest ih =>
    obtain ⟨k, d⟩ := draft
    rw [lookup_cons]
    by_cases hk : k = n
    · subst hk
      simpa using ih
    · have hkept : ((k, d) :: rest).filter (·.1 ≠ n) = (k, d) :: rest.filter (·.1 ≠ n) := by
        simp [hk]
      rw [hkept, lookup_cons, ih, Function.update_comm hk]

theorem valid_forget (h : (overview scripts).Valid db) (n : Nat) :
    (overview scripts).Valid (db.forget n) := by
  refine ⟨?_, h.scripts⟩
  intro draft hdraft
  exact h.drafts draft (List.mem_filter.mp hdraft).1

theorem drafts_forget (db : Instance) (n : Nat) :
    (overview scripts).drafts (db.forget n) =
      Function.update ((overview scripts).drafts db) n none :=
  lookup_forget n db.drafts

/-- The next connection is a new one. -/
theorem leads_clone (h : (overview scripts).Quiet d others db) :
    Leads db.clone (fun n => (overview scripts).Open n none d others)
      ((overview scripts).Quiet d others) := by
  have hfree : others db.nextConnection = none := by
    rw [← h.drafts]
    refine List.lookup_eq_none_iff.mpr ?_
    intro draft hdraft
    have hlt := h.valid.drafts draft hdraft
    simp
    omega
  unfold clone
  dsimp only
  cases hs : ({ db with nextConnection := db.nextConnection + 1 }.note
      (.cloned db.nextConnection)).strike "<clone>" with
  | mk message db₁ =>
    have hquiet : (overview scripts).Quiet d others db₁ ∧
        (overview scripts).Made db₁ db.nextConnection := by
      cases hs
      refine ⟨⟨⟨?_, h.valid.scripts⟩, h.contents, h.drafts⟩, Nat.lt_succ_self _⟩
      intro draft hdraft
      exact Nat.lt_succ_of_lt (h.valid.drafts draft hdraft)
    cases message with
    | some message => exact hquiet.1
    | none => exact hquiet.1.open hquiet.2 hfree

/-- A connection gives up its transaction. -/
theorem open_forget (h : (overview scripts).Open n own d others db) :
    (overview scripts).Open n none d others (db.forget n) := by
  refine ⟨valid_forget h.valid n, h.made, h.contents, h.free, ?_⟩
  rw [drafts_forget, h.drafts, Function.update_idem]

/-- A connection gets a transaction that sees `draft`. -/
theorem open_cons (h : (overview scripts).Open n own d others db) (draft : Data) :
    (overview scripts).Open n (some draft) d others
      { db with drafts := (n, draft) :: db.drafts } := by
  refine ⟨⟨?_, h.valid.scripts⟩, h.made, h.contents, h.free, ?_⟩
  · intro x hx
    rcases List.mem_cons.mp hx with rfl | hx
    · exact h.made
    · exact h.valid.drafts x hx
  · show ((((n, draft) :: db.drafts).lookup ·)) = _
    have hdrafts : (db.drafts.lookup ·) = Function.update others n own := h.drafts
    rw [lookup_cons, hdrafts, Function.update_idem]

theorem lookup_of_open (h : (overview scripts).Open n own d others db) :
    db.drafts.lookup n = own := by
  have hdrafts : (db.drafts.lookup ·) = Function.update others n own := h.drafts
  exact (congrFun hdrafts n).trans (Function.update_self n own others)

/-- A statement in a transaction works on what the transaction sees. -/
theorem perform_inside (h : (overview scripts).Open n (some draft) d others db) (sql : String)
    (parameters : List Cell) (recorded : Bool) :
    Leads (db.perform n sql parameters recorded)
      (fun outcome db' => ∃ draft', draft.perform (Statement.read sql) parameters recorded =
        .ok (draft', outcome) ∧ (overview scripts).Open n (some draft') d others db')
      ((overview scripts).Open n (some draft) d others) := by
  have hview : db.view n = draft := by rw [view, lookup_of_open h, Option.getD_some]
  unfold perform
  rw [hview]
  cases hp : draft.perform (Statement.read sql) parameters recorded with
  | error message => exact h
  | ok result =>
    obtain ⟨draft', outcome⟩ := result
    refine ⟨draft', rfl, ?_⟩
    have hopen : db.inTransaction n = true := by rw [inTransaction, lookup_of_open h]; rfl
    unfold store
    rw [if_pos hopen]
    exact open_cons (open_forget h) draft'

/-- A statement outside transactions works on the contents. -/
theorem perform_outside (h : (overview scripts).Open n none d others db) (sql : String)
    (parameters : List Cell) (recorded : Bool) :
    Leads (db.perform n sql parameters recorded)
      (fun outcome db' => ∃ d', d.perform (Statement.read sql) parameters recorded =
        .ok (d', outcome) ∧ (overview scripts).Open n none d' others db')
      ((overview scripts).Open n none d others) := by
  have hview : db.view n = d := by
    rw [view, lookup_of_open h, Option.getD_none]
    exact h.contents
  unfold perform
  rw [hview]
  cases hp : d.perform (Statement.read sql) parameters recorded with
  | error message => exact h
  | ok result =>
    obtain ⟨d', outcome⟩ := result
    refine ⟨d', rfl, ?_⟩
    have hnone : db.inTransaction n = false := by rw [inTransaction, lookup_of_open h]; rfl
    unfold store
    rw [hnone]
    exact ⟨⟨h.valid.drafts, h.valid.scripts⟩, h.made, rfl, h.free, h.drafts⟩

/-- A text fails before it is read, or it is one that controls transactions, or a statement. -/
theorem leads_batch {sql : String} {good : Unit → Instance → Prop} {bad : Instance → Prop}
    (h : (overview scripts).Open n own d others db)
    (hbad : ∀ db', (overview scripts).Open n own d others db' → bad db')
    (hread : ∀ db', (overview scripts).Open n own d others db' → Leads
      (if sql = beginText then db'.beginOn n
        else if sql = commitText then db'.commitOn n
        else if sql = rollbackText then db'.rollbackOn n
        else
          match db'.perform n sql [] true with
          | (.error message, db) => (.error message, db)
          | (.ok _, db) => (.ok (), db)) good bad) :
    Leads (db.batch n sql) good bad := by
  have hstruck := (alike_strike db (.batched n sql) sql).open h
  unfold batch
  cases hs : (db.note (.batched n sql)).strike sql with
  | mk message db₁ =>
    rw [hs] at hstruck
    cases message with
    | some message => exact hbad db₁ hstruck
    | none => exact hread db₁ hstruck

theorem inTransaction_eq (h : (overview scripts).Open n own d others db) :
    db.inTransaction n = own.isSome := by
  rw [inTransaction, lookup_of_open h]

theorem leads_begin (h : (overview scripts).Open n none d others db) :
    Leads (db.batch n beginText) (fun _ => (overview scripts).Open n (some d) d others)
      ((overview scripts).Spoilt n d others) := by
  refine leads_batch h (fun _ h => ⟨none, h⟩) fun db' h => ?_
  cases h.contents
  rw [if_pos rfl, beginOn, inTransaction_eq h, if_neg (by simp)]
  exact open_cons h db'.data

theorem leads_commit (h : (overview scripts).Open n (some draft) d others db) :
    Leads (db.batch n commitText) (fun _ => (overview scripts).Spoilt n draft others)
      ((overview scripts).Spoilt n d others) := by
  refine leads_batch h (fun _ h => ⟨_, h⟩) fun db' h => ?_
  rw [if_neg (by decide), if_pos rfl, commitOn, lookup_of_open h]
  obtain ⟨hvalid, hmade, -, hfree, hdrafts⟩ := open_forget h
  exact ⟨none, ⟨hvalid.drafts, hvalid.scripts⟩, hmade, rfl, hfree, hdrafts⟩

theorem spoilt_rollback (h : (overview scripts).Spoilt n d others db) :
    (overview scripts).Spoilt n d others (db.batch n rollbackText).2 := by
  obtain ⟨own, h⟩ := h
  refine leads_same.mp (leads_batch h (fun _ h => ⟨own, h⟩) fun db' h => ?_)
  rw [if_neg (by decide), if_neg (by decide), if_pos rfl, rollbackOn]
  split
  · exact ⟨none, open_forget h⟩
  · exact ⟨own, h⟩

theorem leads_statement {sql : String} (h : (overview scripts).Open n own d others db)
    (hsql : sql ∉ [beginText, commitText, rollbackText]) {good bad : Instance → Prop}
    (hbad : ∀ db', (overview scripts).Open n own d others db' → bad db')
    (hperform : ∀ db', (overview scripts).Open n own d others db' →
      Leads (db'.perform n sql [] true) (fun _ => good) bad) :
    Leads (db.batch n sql) (fun _ => good) bad := by
  refine leads_batch h hbad fun db' h => ?_
  simp only [List.mem_cons, List.not_mem_nil, or_false, not_or] at hsql
  rw [if_neg hsql.1, if_neg hsql.2.1, if_neg hsql.2.2]
  have hleads := hperform db' h
  cases hp : db'.perform n sql [] true with
  | mk reply db₁ =>
    rw [hp] at hleads
    cases reply with
    | error message => exact hleads
    | ok outcome => exact hleads

/-- The embedded database has transactions. -/
def isolation (scripts : List Script) : Isolation Instance Data where
  toView := overview scripts
  Effect sql d d' := ∃ outcome, d.perform (Statement.read sql) [] true = .ok (d', outcome)
  Control sql := sql ∈ [beginText, commitText, rollbackText]
  clone h := leads_clone h
  close h := by
    obtain ⟨own, h⟩ := h
    exact (open_forget h).quiet
  begin h := leads_begin h
  commit h := leads_commit h
  rollback h := spoilt_rollback h
  inside h hsql := by
    refine leads_statement h hsql (fun _ h => ⟨_, h⟩) fun db' h => ?_
    refine (perform_inside h _ [] true).mono ?_ fun _ h => ⟨_, h⟩
    intro outcome db'' ⟨draft', hp, hopen⟩
    exact ⟨draft', ⟨outcome, hp⟩, hopen⟩
  outside h hsql := by
    refine leads_statement h hsql (fun _ h => ⟨_, h⟩) fun db' h => ?_
    refine (perform_outside h _ [] true).mono ?_ fun _ h => ⟨_, h⟩
    intro outcome db'' ⟨d', hp, hopen⟩
    exact ⟨d', ⟨outcome, hp⟩, none, hopen⟩

end Instance

end Database
end SchemaMigration
