import Mathlib.Logic.Function.Basic
import SchemaMigration.Database.Backend

/-!
# SchemaMigration.Proofs.Database.Isolation

What a session relies on where a database has transactions.

* `View` : the contents of a database, and what its open transactions have made of them.
* `Quiet`, `Open` : a database where the session has no transaction, and where it has one.
* `Isolation` : a transaction changes the contents when it is committed and not before, and a
  statement outside transactions has its effect as a whole or not at all.

One lemma for each thing that is done with a transaction follows, in terms of `Quiet` and `Open`.
Whatever becomes of a transaction, its connection is closed in the end, and nothing is left of it
but what it has committed.
-/

namespace SchemaMigration
namespace Database

open Sql

variable {δ γ ε α : Type}

/-- Where a call leads that may fail. -/
def Leads (outcome : Except ε α × δ) (good : α → δ → Prop) (bad : δ → Prop) : Prop :=
  match outcome with
  | (.ok a, db) => good a db
  | (.error _, db) => bad db

theorem Leads.mono {outcome : Except ε α × δ} {good good' : α → δ → Prop} {bad bad' : δ → Prop}
    (h : Leads outcome good bad) (hgood : ∀ a db, good a db → good' a db)
    (hbad : ∀ db, bad db → bad' db) : Leads outcome good' bad' := by
  obtain ⟨reply, db⟩ := outcome
  cases reply with
  | ok a => exact hgood a db h
  | error e => exact hbad db h

/-- A call that leads to the same whether or not it fails. -/
theorem leads_same {outcome : Except ε α × δ} {p : δ → Prop} :
    Leads outcome (fun _ => p) p ↔ p outcome.2 := by
  obtain ⟨reply, db⟩ := outcome
  cases reply with
  | ok a => exact Iff.rfl
  | error e => exact Iff.rfl

theorem Leads.map {β : Type} {outcome : Except ε α × δ} {good bad : δ → Prop}
    (h : Leads outcome (fun _ => good) bad) (f : α → β) :
    Leads (outcome.1.map f, outcome.2) (fun _ => good) bad := by
  obtain ⟨reply, db⟩ := outcome
  cases reply with
  | ok a => exact h
  | error e => exact h

theorem Backend.leads_reported {sql : String} {outcome : Except String α × δ}
    {good : α → δ → Prop} {bad : δ → Prop} (h : Leads outcome good bad) :
    Leads (reported sql outcome.1, outcome.2) good bad := by
  obtain ⟨reply, db⟩ := outcome
  cases reply with
  | ok a => exact h
  | error message => exact h

/-- How the states of a database are to be seen. -/
structure View (δ γ : Type) where
  /-- The states that the database can be in. -/
  Valid : δ → Prop
  /-- The connections that were made. -/
  Made : δ → Nat → Prop
  /-- What is seen without a transaction. -/
  contents : δ → γ
  /-- What the transaction of a connection sees, if there is one. -/
  drafts : δ → Nat → Option γ

namespace View

/-- The contents are `d`, and the transactions are `others`. -/
structure Quiet (v : View δ γ) (d : γ) (others : Nat → Option γ) (db : δ) : Prop where
  valid : v.Valid db
  contents : v.contents db = d
  drafts : v.drafts db = others

/-- There is connection `n` besides, with a transaction that sees `own`, or with none. -/
structure Open (v : View δ γ) (n : Nat) (own : Option γ) (d : γ) (others : Nat → Option γ)
    (db : δ) : Prop where
  valid : v.Valid db
  made : v.Made db n
  contents : v.contents db = d
  free : others n = none
  drafts : v.drafts db = Function.update others n own

/-- Whatever has become of the transaction on connection `n`, it has no effects. -/
def Spoilt (v : View δ γ) (n : Nat) (d : γ) (others : Nat → Option γ) (db : δ) : Prop :=
  ∃ own, v.Open n own d others db

variable {v : View δ γ} {n : Nat} {d : γ} {others : Nat → Option γ} {db : δ}

theorem Quiet.refl (h : v.Valid db) : v.Quiet (v.contents db) (v.drafts db) db := ⟨h, rfl, rfl⟩

/-- A connection without a transaction leaves the rest as it is. -/
theorem Open.quiet (h : v.Open n none d others db) : v.Quiet d others db :=
  ⟨h.valid, h.contents, by rw [h.drafts, ← h.free, Function.update_eq_self]⟩

theorem Quiet.open (h : v.Quiet d others db) (hmade : v.Made db n) (hfree : others n = none) :
    v.Open n none d others db :=
  ⟨h.valid, hmade, h.contents, hfree, by rw [h.drafts, ← hfree, Function.update_eq_self]⟩

end View

open View

/-- A database with transactions. A transaction that is rolled back, whose `COMMIT` fails or whose
connection is closed leaves no effects. -/
structure Isolation (δ γ : Type) [Connections δ] extends View δ γ where
  /-- What a text can do to contents where it succeeds. -/
  Effect : String → γ → γ → Prop
  /-- The texts that begin or end transactions. -/
  Control : String → Prop
  clone {d : γ} {others : Nat → Option γ} {db : δ} (h : toView.Quiet d others db) :
    Leads (Connections.clone db) (fun n => toView.Open n none d others) (toView.Quiet d others)
  close {n : Nat} {d : γ} {others : Nat → Option γ} {db : δ} (h : toView.Spoilt n d others db) :
    toView.Quiet d others (Connections.close db n)
  begin {n : Nat} {d : γ} {others : Nat → Option γ} {db : δ} (h : toView.Open n none d others db) :
    Leads (Connections.batch db n Instance.beginText)
      (fun _ => toView.Open n (some d) d others) (toView.Spoilt n d others)
  commit {n : Nat} {draft d : γ} {others : Nat → Option γ} {db : δ}
    (h : toView.Open n (some draft) d others db) :
    Leads (Connections.batch db n Instance.commitText)
      (fun _ => toView.Spoilt n draft others) (toView.Spoilt n d others)
  rollback {n : Nat} {d : γ} {others : Nat → Option γ} {db : δ} (h : toView.Spoilt n d others db) :
    toView.Spoilt n d others (Connections.batch db n Instance.rollbackText).2
  /-- A statement in a transaction takes effect there, if it succeeds. -/
  inside {n : Nat} {draft d : γ} {others : Nat → Option γ} {db : δ} {sql : String}
    (h : toView.Open n (some draft) d others db) (hsql : ¬ Control sql) :
    Leads (Connections.batch db n sql)
      (fun _ db' => ∃ draft', Effect sql draft draft' ∧ toView.Open n (some draft') d others db')
      (toView.Spoilt n d others)
  /-- A statement outside transactions takes effect at once, or has none. -/
  outside {n : Nat} {d : γ} {others : Nat → Option γ} {db : δ} {sql : String}
    (h : toView.Open n none d others db) (hsql : ¬ Control sql) :
    Leads (Connections.batch db n sql)
      (fun _ db' => ∃ d', Effect sql d d' ∧ toView.Spoilt n d' others db')
      (toView.Spoilt n d others)

namespace Isolation

variable [Connections δ] {A : Isolation δ γ} {n : Nat} {d draft : γ} {others : Nat → Option γ}
  {db : δ} {sql : String}

theorem open_begin (h : A.Quiet d others db) :
    Leads (Backend.begin db) (fun n => A.Open n (some d) d others) (A.Quiet d others) := by
  unfold Backend.begin
  have hclone := A.clone h
  cases hcloned : Connections.clone db with
  | mk reply db₁ =>
    rw [hcloned] at hclone
    cases reply with
    | error message => exact hclone
    | ok n =>
      have hbegin := A.begin hclone
      dsimp only
      cases hbegun : Connections.batch db₁ n Instance.beginText with
      | mk reply db₂ =>
        rw [hbegun] at hbegin
        cases reply with
        | error message =>
          exact A.close hbegin
        | ok _ => exact hbegin

/-- A transaction that is left has no effects. -/
theorem quiet_abandon (h : A.Spoilt n d others db) : A.Quiet d others (Backend.abandon db n) := by
  exact A.close (A.rollback h)

/-- A failing end of a transaction is followed by a `ROLLBACK`, which may fail too. -/
theorem quiet_finish {d' : γ} (h : Leads (Connections.batch db n sql)
      (fun _ => A.Spoilt n d' others) (A.Spoilt n d others)) :
    Leads (Backend.finish db n sql) (fun _ => A.Quiet d' others) (A.Quiet d others) := by
  unfold Backend.finish Handle.finish
  cases hended : Connections.batch db n sql with
  | mk reply db₁ =>
    rw [hended] at h
    cases reply with
    | ok _ =>
      exact A.close h
    | error message =>
      exact A.close (A.rollback h)

theorem quiet_commit (h : A.Open n (some draft) d others db) :
    Leads (Backend.finish db n Instance.commitText) (fun _ => A.Quiet draft others)
      (A.Quiet d others) :=
  quiet_finish (A.commit h)

theorem quiet_rollback (h : A.Spoilt n d others db) :
    Leads (Backend.finish db n Instance.rollbackText) (fun _ => A.Quiet d others)
      (A.Quiet d others) :=
  quiet_finish (leads_same.mpr (A.rollback h))

theorem batch_inside (h : A.Open n (some draft) d others db) (hsql : ¬ A.Control sql) :
    Leads (Backend.batch db (some n) sql)
      (fun _ db' => ∃ draft', A.Effect sql draft draft' ∧ A.Open n (some draft') d others db')
      (A.Spoilt n d others) :=
  Backend.leads_reported (A.inside h hsql)

theorem batch_outside (h : A.Quiet d others db) (hsql : ¬ A.Control sql) :
    Leads (Backend.batch db none sql) (fun _ db' => ∃ d', A.Effect sql d d' ∧ A.Quiet d' others db')
      (A.Quiet d others) := by
  have hclone := A.clone h
  unfold Backend.batch Backend.onConnection Backend.onNewConnection
  cases hcloned : Connections.clone db with
  | mk reply db₁ =>
    rw [hcloned] at hclone
    cases reply with
    | error message => exact hclone
    | ok n =>
      have hbatch := A.outside hclone hsql
      dsimp only
      cases hsent : Connections.batch db₁ n sql with
      | mk reply db₂ =>
        rw [hsent] at hbatch
        cases reply with
        | error message => exact A.close hbatch
        | ok _ =>
          obtain ⟨d', heffect, hopen⟩ := hbatch
          exact ⟨d', heffect, A.close hopen⟩

end Isolation

/-- A flag in the contents, which two statements read and set inside a transaction. -/
structure LockFlag [Connections δ] (A : Isolation δ γ) (readText setText : String) where
  /-- The flag, if there is one. -/
  flag : γ → Option Bool
  /-- The contents with the flag set. -/
  locked : γ → γ
  flag_locked {d : γ} (h : flag d = some false) : flag (locked d) = some true
  read {n : Nat} {draft d : γ} {others : Nat → Option γ} {db : δ}
    (h : A.Open n (some draft) d others db) :
    Leads (Connections.query db n readText []) (fun _ => A.Open n (some draft) d others)
      (A.Spoilt n d others)
  /-- Where rows are updated the flag was clear and is set, and where none is nothing changes. -/
  set {n : Nat} {draft d : γ} {others : Nat → Option γ} {db : δ}
    (h : A.Open n (some draft) d others db) :
    Leads (Connections.execute db n setText [])
      (fun affected db' => if affected = 0 then A.Open n (some draft) d others db'
        else flag draft = some false ∧ A.Open n (some (locked draft)) d others db')
      (A.Spoilt n d others)

end Database
end SchemaMigration
