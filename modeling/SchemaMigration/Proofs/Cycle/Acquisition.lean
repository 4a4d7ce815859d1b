import SchemaMigration.Cycle.Lock
import SchemaMigration.Proofs.Database.Dialogue
import SchemaMigration.Proofs.Database.EmbeddedFlag

/-!
# SchemaMigration.Proofs.Cycle.Acquisition

What comes of trying to take the lock, whatever the single attempts come to.

* `Trial` : how a single attempt goes. `Tries` : the calls that it makes then, with their replies.
* `Round` : an attempt with the contents before and after it.
* `Polls` : attempts with pauses between them, in which other users work on the database.
* `Kept` : what is left of all of them, if there are no other users.

`acquire_outcome` : the attempts go on while they find the lock held, up to their number. Only an
attempt that takes the lock changes the contents.
-/

namespace SchemaMigration

open Sql Database Attempt

/-- How a single attempt to take the lock goes. -/
inductive Trial where
  /-- The attempt has set the flag. -/
  | taken
  | alreadySet
  /-- The flag was clear, but no row was updated. -/
  | unmatched
  | rowMissing
  | failed (e : DatabaseError)

/-- What an attempt gives. A conflict counts as a lock that is held. -/
def Trial.result (schema : String) : Trial → Except CycleError Bool
  | taken => .ok true
  | alreadySet | unmatched => .ok false
  | rowMissing => .error (Lock.rowMissing schema)
  | failed e => if e.isConflict then .ok false else .error (.database e)

/-- What is made of the last one of so many attempts, after so much time. -/
def verdict (attempts waited : Nat) : Except CycleError Bool → Except CycleError Unit
  | .ok true => .ok ()
  | .ok false => .error (.lockTimeout attempts waited)
  | .error e => .error e

def Exchange.flagRead (reply : Except DatabaseError (List Row)) : Exchange :=
  ⟨.query .transaction (.control .isLocked []), reply⟩

def Exchange.flagSet (reply : Except DatabaseError Nat) : Exchange :=
  ⟨.execute .transaction (.control .acquireLock []), reply⟩

/-- The calls of an attempt, with their replies. -/
inductive Tries : Trial → List Exchange → Prop where
  | notBegun (e : DatabaseError) : Tries (.failed e) [⟨.begin, .error e⟩]
  | notRead (e : DatabaseError) :
      Tries (.failed e) [⟨.begin, .ok ()⟩, .flagRead (.error e), ⟨.abandon, ()⟩]
  | noRow : Tries .rowMissing [⟨.begin, .ok ()⟩, .flagRead (.ok []), ⟨.rollback, .ok ()⟩]
  | noRowFailed (e : DatabaseError) :
      Tries (.failed e) [⟨.begin, .ok ()⟩, .flagRead (.ok []), ⟨.rollback, .error e⟩]
  | notDecoded {row : Row} {e : DecodeError} (h : row.bool 0 = .error e) (rows : List Row) :
      Tries (.failed (.decode e))
        [⟨.begin, .ok ()⟩, .flagRead (.ok (row :: rows)), ⟨.abandon, ()⟩]
  | found {row : Row} (h : row.bool 0 = .ok true) (rows : List Row) :
      Tries .alreadySet [⟨.begin, .ok ()⟩, .flagRead (.ok (row :: rows)), ⟨.rollback, .ok ()⟩]
  | foundFailed {row : Row} (h : row.bool 0 = .ok true) (rows : List Row) (e : DatabaseError) :
      Tries (.failed e)
        [⟨.begin, .ok ()⟩, .flagRead (.ok (row :: rows)), ⟨.rollback, .error e⟩]
  | notSet {row : Row} (h : row.bool 0 = .ok false) (rows : List Row) (e : DatabaseError) :
      Tries (.failed e)
        [⟨.begin, .ok ()⟩, .flagRead (.ok (row :: rows)), .flagSet (.error e), ⟨.abandon, ()⟩]
  | notCommitted {row : Row} (h : row.bool 0 = .ok false) (rows : List Row) (affected : Nat)
      (e : DatabaseError) :
      Tries (.failed e) [⟨.begin, .ok ()⟩, .flagRead (.ok (row :: rows)),
        .flagSet (.ok affected), ⟨.commit, .error e⟩]
  | committed {row : Row} (h : row.bool 0 = .ok false) (rows : List Row) (affected : Nat) :
      Tries (if affected = 0 then .unmatched else .taken) [⟨.begin, .ok ()⟩,
        .flagRead (.ok (row :: rows)), .flagSet (.ok affected), ⟨.commit, .ok ()⟩]

variable {δ γ : Type} [Connections δ] {A : Isolation δ γ} {readText setText : String}

/-- An attempt, with the contents before and after it. -/
structure Round (F : LockFlag A readText setText) (trial : Trial) (d d' : γ)
    (calls : List Exchange) : Prop where
  tries : Tries trial calls
  taken : trial = .taken → F.flag d = some false ∧ F.flag d' = some true ∧ d' = F.locked d
  otherwise : trial ≠ .taken → d' = d

/-- An attempt that gives `r`, where the contents were `d` and so many calls had been made. -/
def Attempted (F : LockFlag A readText setText) (schema : String) (d : γ) (calls : List Exchange)
    (r : Except CycleError Bool) (d' : γ) (calls' : List Exchange) : Prop :=
  ∃ trial more, calls' = calls ++ more ∧ Round F trial d d' more ∧ trial.result schema = r

/-! ## A single attempt -/

section Attempt

variable {dialect : Dialect} {schema : String}
  {F : LockFlag A (dialect.statement .isLocked schema) (dialect.statement .acquireLock schema)}
  {n : Nat} {d draft : γ} {others : Nat → Option γ} {link : Link δ} {calls : List Exchange}
  {meanwhile : δ → δ}

/-- How the work of an attempt ends that goes well: what it asks for, what it sees then, and its
calls. -/
inductive Worked (F : LockFlag A readText setText) (schema : String) (d : γ)
    (calls : List Exchange) : Ending × Except CycleError Bool → γ → List Exchange → Prop where
  | noRow : Worked F schema d calls (.rollback, .error (Lock.rowMissing schema)) d
      (calls ++ [.flagRead (.ok [])])
  | found {row : Row} (h : row.bool 0 = .ok true) (rows : List Row) :
      Worked F schema d calls (.rollback, .ok false) d (calls ++ [.flagRead (.ok (row :: rows))])
  | unmatched {row : Row} (h : row.bool 0 = .ok false) (rows : List Row) :
      Worked F schema d calls (.commit, .ok false) d
        (calls ++ [.flagRead (.ok (row :: rows))] ++ [.flagSet (.ok 0)])
  | taken {row : Row} (h : row.bool 0 = .ok false) (rows : List Row) {affected : Nat}
      (ha : affected ≠ 0) (hflag : F.flag d = some false) :
      Worked F schema d calls (.commit, .ok true) (F.locked d)
        (calls ++ [.flagRead (.ok (row :: rows))] ++ [.flagSet (.ok affected)])

/-- How it ends that does not. -/
inductive Stuck (calls : List Exchange) : CycleError → List Exchange → Prop where
  | notRead (e : DatabaseError) : Stuck calls (.database e) (calls ++ [.flagRead (.error e)])
  | notDecoded {row : Row} {e : DecodeError} (h : row.bool 0 = .error e) (rows : List Row) :
      Stuck calls (.database (.decode e)) (calls ++ [.flagRead (.ok (row :: rows))])
  | notSet {row : Row} (h : row.bool 0 = .ok false) (rows : List Row) (e : DatabaseError) :
      Stuck calls (.database e)
        (calls ++ [.flagRead (.ok (row :: rows))] ++ [.flagSet (.error e)])

theorem meets_flagRead {post : List Row → Link δ × List Exchange → Prop}
    {fails : CycleError → Link δ × List Exchange → Prop} (h : link.Busy A.toView n d others draft)
    (F : LockFlag A (dialect.statement .isLocked schema) setText)
    (hok : ∀ rows link', link'.Busy A.toView n d others draft →
      post rows (link', calls ++ [.flagRead (.ok rows)]))
    (hfails : ∀ e link', link'.Broken A.toView n d others draft →
      fails (.database e) (link', calls ++ [.flagRead (.error e)])) :
    Meets (dialogue (Link.amid meanwhile dialect schema)) post fails
      (query .transaction (.control .isLocked [])) (link, calls) := by
  obtain ⟨db, _⟩ := link
  obtain ⟨rfl, hopen⟩ := h
  refine meets_query.mpr ⟨trivial, ?_⟩
  rintro reply ⟨link, _⟩ ⟨ha, rfl⟩
  refine (Backend.leads_reported ((F.read hopen).map _)).ends
    (fun reply => calls ++ [.flagRead reply]) ha ?_ ?_
  · exact fun rows db' hopen => hok rows ⟨db', some n⟩ ⟨rfl, hopen⟩
  · exact fun e db' hspoilt => hfails e ⟨db', some n⟩ ⟨rfl, hspoilt⟩

theorem meets_flagSet {post : Nat → Link δ × List Exchange → Prop}
    {fails : CycleError → Link δ × List Exchange → Prop} (h : link.Busy A.toView n d others draft)
    (F : LockFlag A readText (dialect.statement .acquireLock schema))
    (hnone : ∀ link', link'.Busy A.toView n d others draft →
      post 0 (link', calls ++ [.flagSet (.ok 0)]))
    (hsome : ∀ affected link', affected ≠ 0 → F.flag draft = some false →
      link'.Busy A.toView n d others (F.locked draft) →
      post affected (link', calls ++ [.flagSet (.ok affected)]))
    (hfails : ∀ e link', link'.Broken A.toView n d others draft →
      fails (.database e) (link', calls ++ [.flagSet (.error e)])) :
    Meets (dialogue (Link.amid meanwhile dialect schema)) post fails
      (execute .transaction (.control .acquireLock [])) (link, calls) := by
  obtain ⟨db, _⟩ := link
  obtain ⟨rfl, hopen⟩ := h
  refine meets_execute.mpr ⟨trivial, ?_⟩
  rintro reply ⟨link, _⟩ ⟨ha, rfl⟩
  refine (Backend.leads_reported (F.set hopen)).ends (fun reply => calls ++ [.flagSet reply]) ha
    ?_ ?_
  · intro affected db' hset
    by_cases hzero : affected = 0
    · subst hzero
      exact hnone ⟨db', some n⟩ ⟨rfl, hset⟩
    · rw [if_neg hzero] at hset
      exact hsome affected ⟨db', some n⟩ hzero hset.1 ⟨rfl, hset.2⟩
  · exact fun e db' hspoilt => hfails e ⟨db', some n⟩ ⟨rfl, hspoilt⟩

theorem meets_attempt (F : LockFlag A (dialect.statement .isLocked schema)
      (dialect.statement .acquireLock schema)) (h : link.Idle A.toView others d) :
    Meets (dialogue (Link.amid meanwhile dialect schema))
      (At (Link.Idle A.toView others) (Attempted F schema d calls))
      (At (Link.Idle A.toView others) fun e d' calls' => ∃ failure, e = .database failure ∧
        Attempted F schema d calls ((Trial.failed failure).result schema) d' calls')
      (Lock.attempt schema) (link, calls) := by
  have hunchanged : ∀ {trial more}, Tries trial more → trial ≠ .taken → Round F trial d d more :=
    fun ht hne => ⟨ht, fun h => absurd h hne, fun _ => rfl⟩
  have hfailed : ∀ {e more calls'}, Tries (.failed e) more → calls' = calls ++ more →
      ∃ failure, CycleError.database e = .database failure ∧
        Attempted F schema d calls ((Trial.failed failure).result schema) d calls' :=
    fun {e more calls'} ht hcalls =>
      ⟨e, rfl, .failed e, more, hcalls, hunchanged ht (by simp), rfl⟩
  refine meets_inTransaction_at (Worked F schema d (calls ++ [⟨.begin, .ok ()⟩]))
    (fun e _ => Stuck (calls ++ [⟨.begin, .ok ()⟩]) e) h ?_ ?_ ?_ ?_ ?_
  · exact fun e => hfailed (.notBegun e) rfl
  · intro n link hbusy
    refine meets_bind.mpr (meets_flagRead hbusy F ?_ ?_)
    · intro rows link' hbusy'
      cases rows with
      | nil => exact meets_pure.mpr ⟨d, hbusy', .noRow⟩
      | cons row rows =>
        refine meets_bind.mpr (meets_ofResult.mpr ?_)
        cases hflag : row.bool 0 with
        | error e => exact ⟨d, ⟨hbusy'.transaction, _, hbusy'.within⟩, .notDecoded hflag rows⟩
        | ok flag =>
          cases flag with
          | true => exact meets_pure.mpr ⟨d, hbusy', .found hflag rows⟩
          | false =>
            refine meets_bind.mpr (meets_flagSet hbusy' F ?_ ?_ ?_)
            · exact fun link'' hbusy'' => meets_pure.mpr ⟨d, hbusy'', .unmatched hflag rows⟩
            · intro affected link'' hne hclear hbusy''
              refine meets_pure.mpr ⟨F.locked d, hbusy'', ?_⟩
              rw [decide_eq_true (Nat.pos_of_ne_zero hne)]
              exact .taken hflag rows hne hclear
            · exact fun e link'' hbroken => ⟨d, hbroken, .notSet hflag rows e⟩
    · exact fun e link' hbroken => ⟨d, hbroken, .notRead e⟩
  · intro result draft calls' hworked
    cases hworked with
    | unmatched hrow rows =>
      refine ⟨⟨.unmatched, _, by simp, hunchanged (.committed hrow rows 0) (by simp), rfl⟩, ?_⟩
      exact fun e => hfailed (.notCommitted hrow rows 0 e) (by simp)
    | @taken row hrow rows affected hne hclear =>
      have htries := Tries.committed hrow rows affected
      rw [if_neg hne] at htries
      refine ⟨⟨.taken, _, by simp, ⟨htries, fun _ => ?_, fun h => absurd rfl h⟩, rfl⟩, ?_⟩
      · exact ⟨hclear, F.flag_locked hclear, rfl⟩
      · exact fun e => hfailed (.notCommitted hrow rows affected e) (by simp)
  · intro result draft calls' hworked
    cases hworked with
    | noRow =>
      exact ⟨⟨.rowMissing, _, by simp, hunchanged .noRow (by simp), rfl⟩,
        fun e => hfailed (.noRowFailed e) (by simp)⟩
    | found hrow rows =>
      exact ⟨⟨.alreadySet, _, by simp, hunchanged (.found hrow rows) (by simp), rfl⟩,
        fun e => hfailed (.foundFailed hrow rows e) (by simp)⟩
  · intro e draft calls' hstuck
    cases hstuck with
    | notRead e => exact hfailed (.notRead e) (by simp)
    | @notDecoded row e hrow rows => exact hfailed (.notDecoded hrow rows) (by simp)
    | notSet hrow rows e => exact hfailed (.notSet hrow rows e) (by simp)

/-- One attempt, with conflicts taken for a lock that is held. -/
theorem meets_tryAcquire (F : LockFlag A (dialect.statement .isLocked schema)
      (dialect.statement .acquireLock schema)) (h : link.Idle A.toView others d) :
    Meets (dialogue (Link.amid meanwhile dialect schema))
      (fun b => At (Link.Idle A.toView others) (Attempted F schema d calls) (.ok b))
      (fun e => At (Link.Idle A.toView others) (Attempted F schema d calls) (.error e))
      (Lock.tryAcquire schema) (link, calls) := by
  refine meets_bind.mpr (meets_outcome.mpr ((meets_attempt F h).mono ?_ ?_))
  · intro result t ht
    refine meets_ofResult.mpr ?_
    cases result with
    | ok b => exact ht
    | error e => exact ht
  · rintro e ⟨link', calls'⟩ ⟨d', hidle, failure, rfl, htried⟩
    show Meets _ _ _ (if failure.isConflict then pure false else throw (.database failure)) _
    by_cases hconflict : failure.isConflict = true
    · rw [if_pos hconflict]
      simp only [Trial.result, if_pos hconflict] at htried
      exact meets_pure.mpr ⟨d', hidle, htried⟩
    · rw [if_neg hconflict]
      simp only [Trial.result, if_neg hconflict] at htried
      exact meets_throw.mpr ⟨d', hidle, htried⟩

end Attempt

/-! ## All attempts -/

/-- Attempts with pauses between them, from a database to a database, with their calls. All but
the last one find the lock held. -/
inductive Polls (F : LockFlag A readText setText) (schema : String) (meanwhile : δ → δ)
    (pause : Nat) : List Trial → δ → δ → List Exchange → Prop where
  | last {trial : Trial} {db db' : δ} {calls : List Exchange}
      (h : Round F trial (A.contents db) (A.contents db') calls)
      (hd : A.drafts db' = A.drafts db) : Polls F schema meanwhile pause [trial] db db' calls
  | again {trial : Trial} {trials : List Trial} {db db' db'' : δ} {calls rest : List Exchange}
      (h : Round F trial (A.contents db) (A.contents db') calls)
      (hd : A.drafts db' = A.drafts db) (hheld : trial.result schema = .ok false)
      (hrest : Polls F schema meanwhile pause trials (meanwhile db') db'' rest) :
      Polls F schema meanwhile pause (trial :: trials) db db''
        (calls ++ ⟨.sleep pause, ()⟩ :: rest)

/-- The milliseconds for which a session sleeps. -/
def slept (calls : List Exchange) : Nat :=
  (calls.map fun x => match x.call with
    | .sleep milliseconds => milliseconds
    | _ => 0).sum

theorem slept_of_tries {trial : Trial} {calls : List Exchange} (h : Tries trial calls) :
    slept calls = 0 := by
  cases h <;> rfl

theorem slept_append (calls rest : List Exchange) :
    slept (calls ++ rest) = slept calls + slept rest := by
  simp [slept]

variable {F : LockFlag A readText setText} {schema : String} {meanwhile : δ → δ} {pause : Nat}

theorem slept_of_polls {trials : List Trial} {db db' : δ} {calls : List Exchange}
    (h : Polls F schema meanwhile pause trials db db' calls) :
    slept calls + pause = trials.length * pause := by
  induction h with
  | last h => simp [slept_of_tries h.tries]
  | @again trial trials db db' db'' calls rest h _ _ _ ih =>
    have hpause : slept (⟨.sleep pause, ()⟩ :: rest) = pause + slept rest := rfl
    rw [slept_append, slept_of_tries h.tries, hpause, List.length_cons, Nat.succ_mul, ← ih]
    omega

theorem Polls.ne_nil {trials : List Trial} {db db' : δ} {calls : List Exchange}
    (h : Polls F schema meanwhile pause trials db db' calls) : trials ≠ [] := by
  cases h <;> simp

/-- An attempt that finds the lock held changes nothing. -/
theorem Round.held {trial : Trial} {d d' : γ} {calls : List Exchange} (h : Round F trial d d' calls)
    (hheld : trial.result schema = .ok false) : d' = d := by
  refine h.otherwise ?_
  rintro rfl
  cases hheld

/-- Without other users the attempts come to what the last one does. -/
theorem Polls.alone {trials : List Trial} {last : Trial} {db db' : δ} {calls : List Exchange}
    (h : Polls F schema id pause (trials ++ [last]) db db' calls) :
    A.drafts db' = A.drafts db ∧ ∃ more, Round F last (A.contents db) (A.contents db') more := by
  generalize hall : trials ++ [last] = all at h
  induction h generalizing trials with
  | @last trial db db' calls hround hdrafts =>
    cases trials with
    | nil =>
      cases hall
      exact ⟨hdrafts, calls, hround⟩
    | cons first rest => simp at hall
  | @again trial _ db db' db'' _ _ hround hdrafts hheld hrest ih =>
    cases trials with
    | nil =>
      cases hall
      exact absurd rfl hrest.ne_nil
    | cons first rest =>
      cases hall
      obtain ⟨hrestDrafts, more, hlast⟩ := ih rfl
      -- the first attempt has left the contents as they were
      have hsame : A.contents (id db') = A.contents db := hround.held hheld
      rw [hsame] at hlast
      exact ⟨hrestDrafts.trans hdrafts, more, hlast⟩

theorem verdict_eq_ok_iff {attempts waited : Nat} {trial : Trial} :
    verdict attempts waited (trial.result schema) = .ok () ↔ trial = .taken := by
  cases trial with
  | failed e => by_cases hconflict : e.isConflict = true <;> simp [Trial.result, hconflict, verdict]
  | taken | alreadySet | unmatched | rowMissing => simp [Trial.result, verdict]

section Acquire

variable {dialect : Dialect} {db : δ} {calls : List Exchange}

/-- Attempts that give `r`, at most `more` of them before the last one. -/
def Polled (F : LockFlag A readText setText) (schema : String) (meanwhile : δ → δ) (pause : Nat)
    (db : δ) (calls : List Exchange) (more : Nat) (r : Except CycleError Bool)
    (s : Link δ × List Exchange) : Prop :=
  ∃ trials last db' rest, s = (⟨db', none⟩, calls ++ rest) ∧
    Polls F schema meanwhile pause (trials ++ [last]) db db' rest ∧ trials.length ≤ more ∧
    (∀ trial ∈ trials, trial.result schema = .ok false) ∧ last.result schema = r ∧
    (r = .ok false → trials.length = more)

/-- A single attempt, seen from the database that it works on. -/
theorem exists_round {r : Except CycleError Bool} {t : Link δ × List Exchange}
    (h : At (Link.Idle A.toView (A.drafts db)) (Attempted F schema (A.contents db) calls) r t) :
    ∃ trial more db', t = (⟨db', none⟩, calls ++ more) ∧ A.Valid db' ∧
      A.drafts db' = A.drafts db ∧ Round F trial (A.contents db) (A.contents db') more ∧
      trial.result schema = r := by
  obtain ⟨⟨db', _⟩, _⟩ := t
  obtain ⟨d', ⟨rfl, hquiet⟩, trial, more, rfl, hround, hresult⟩ := h
  rw [← hquiet.contents] at hround
  exact ⟨trial, more, db', rfl, hquiet.valid, hquiet.drafts, hround, hresult⟩

/-- The attempt that is the last one. -/
theorem polled_last {more : Nat} {r : Except CycleError Bool} {t : Link δ × List Exchange}
    (h : At (Link.Idle A.toView (A.drafts db)) (Attempted F schema (A.contents db) calls) r t)
    (hr : r = .ok false → more = 0) :
    Polled F schema meanwhile pause db calls more r t := by
  obtain ⟨trial, rest, db', rfl, -, hdrafts, hround, hresult⟩ := exists_round h
  refine ⟨[], trial, db', rest, rfl, .last hround hdrafts, Nat.zero_le more, ?_, hresult, ?_⟩
  · intro trial htrial
    cases htrial
  · intro hheld
    rw [hr hheld]
    rfl

/-- An attempt before others. -/
theorem Polled.again {more : Nat} {r : Except CycleError Bool} {t : Link δ × List Exchange}
    {trial : Trial} {db' : δ} {first : List Exchange}
    (h : Round F trial (A.contents db) (A.contents db') first) (hd : A.drafts db' = A.drafts db)
    (hheld : trial.result schema = .ok false)
    (hp : Polled F schema meanwhile pause (meanwhile db')
      (calls ++ first ++ [⟨.sleep pause, ()⟩]) more r t) :
    Polled F schema meanwhile pause db calls (more + 1) r t := by
  obtain ⟨trials, last, db'', rest, rfl, hpolls, hlength, hall, hresult, hfull⟩ := hp
  refine ⟨trial :: trials, last, db'', first ++ ⟨.sleep pause, ()⟩ :: rest, by simp,
    .again h hd hheld hpolls, Nat.succ_le_succ hlength, ?_, hresult, ?_⟩
  · exact List.forall_mem_cons.mpr ⟨hheld, hall⟩
  · intro hr
    rw [List.length_cons, hfull hr]

/-- So many attempts and one more, each at least a pause after the one before. -/
theorem meets_tryTimes (F : LockFlag A (dialect.statement .isLocked schema)
      (dialect.statement .acquireLock schema))
    (hmeanwhile : ∀ db, A.Valid db → A.Valid (meanwhile db)) (pause more : Nat)
    (h : A.Valid db) :
    Meets (dialogue (Link.amid meanwhile dialect schema))
      (fun b => Polled F schema meanwhile pause db calls more (.ok b))
      (fun e => Polled F schema meanwhile pause db calls more (.error e))
      (Lock.tryTimes schema pause (more + 1)) (⟨db, none⟩, calls) := by
  induction more generalizing db calls with
  | zero =>
    refine (meets_tryAcquire F ⟨rfl, .refl h⟩).mono ?_ ?_
    · exact fun b t ht => polled_last ht fun _ => rfl
    · exact fun e t ht => polled_last ht fun hr => by cases hr
  | succ more ih =>
    refine meets_bind.mpr ((meets_tryAcquire F ⟨rfl, .refl h⟩).mono ?_ ?_)
    · intro b t ht
      cases b with
      | true => exact meets_pure.mpr (polled_last ht fun hr => by cases hr)
      | false =>
        obtain ⟨trial, first, db', rfl, hvalid, hdrafts, hround, hheld⟩ := exists_round ht
        refine meets_bind.mpr (meets_lift.mpr ⟨trivial, ?_⟩)
        rintro reply ⟨link, _⟩ ⟨ha, rfl⟩
        cases ha
        refine (ih (hmeanwhile db' hvalid)).mono ?_ ?_
        · exact fun b t hp => hp.again hround hdrafts hheld
        · exact fun e t hp => hp.again hround hdrafts hheld
    · exact fun e t ht => polled_last ht fun hr => by cases hr

end Acquire

/-- What is left of a call that is to take the lock, where nobody else uses the database: no
transaction, the flag that was clear and is set if the call went well, and otherwise nothing. -/
structure Kept (F : LockFlag A readText setText) (db db' : δ) (result : Except CycleError Unit) :
    Prop where
  drafts : A.drafts db' = A.drafts db
  taken : result = .ok () → F.flag (A.contents db) = some false ∧
    F.flag (A.contents db') = some true ∧ A.contents db' = F.locked (A.contents db)
  otherwise : result ≠ .ok () → A.contents db' = A.contents db

theorem Polls.kept {trials : List Trial} {last : Trial} {db db' : δ} {calls : List Exchange}
    (h : Polls F schema id pause (trials ++ [last]) db db' calls) (attempts waited : Nat) :
    Kept F db db' (verdict attempts waited (last.result schema)) := by
  obtain ⟨hdrafts, more, hround⟩ := h.alone
  refine ⟨hdrafts, ?_, ?_⟩
  · intro hok
    exact hround.taken (verdict_eq_ok_iff.mp hok)
  · intro hnot
    exact hround.otherwise fun htaken => hnot (verdict_eq_ok_iff.mpr htaken)

/-- What taking the lock comes to: so many attempts that find the lock held, and the last one. -/
structure Acquired (F : LockFlag A readText setText) (schema : String) (meanwhile : δ → δ)
    (settings : LockSettings) (trials : List Trial) (last : Trial) (db db' : δ)
    (calls : List Exchange) (result : Except CycleError Unit) : Prop where
  polls : Polls F schema meanwhile settings.retryInterval (trials ++ [last]) db db' calls
  held : ∀ trial ∈ trials, trial.result schema = .ok false
  bounded : trials.length + 1 ≤ max settings.maxAttempts 1
  exhausted : last.result schema = .ok false → trials.length + 1 = max settings.maxAttempts 1
  slept : slept calls = trials.length * settings.retryInterval
  kept : meanwhile = id → Kept F db db' result
  result : result = verdict (max settings.maxAttempts 1) (SchemaMigration.slept calls)
    (last.result schema)

/-- Taking the lock, whatever the single attempts come to. They follow each other with a pause
between two of them, while they find the lock held and up to the number of attempts, which is one
at least. The last one decides : it has taken the lock, or its error is the result, or it was the
last one allowed and the result is the timeout. An attempt changes the contents only if it takes
the lock; no transaction is left open. -/
theorem acquire_outcome {dialect : Dialect} (F : LockFlag A (dialect.statement .isLocked schema)
      (dialect.statement .acquireLock schema)) {db : δ} (h : A.Valid db)
    (hmeanwhile : ∀ db, A.Valid db → A.Valid (meanwhile db)) (settings : LockSettings) :
    ∃ result db' calls trials last,
      (Lock.acquire schema settings).run.run (noting (Link.amid meanwhile dialect schema))
        (⟨db, none⟩, []) = (result, ⟨db', none⟩, calls) ∧
      Acquired F schema meanwhile settings trials last db db' calls result := by
  obtain ⟨more, hmore⟩ : ∃ more, max settings.maxAttempts 1 = more + 1 :=
    ⟨max settings.maxAttempts 1 - 1, by omega⟩
  let p : Except CycleError Unit → Link δ × List Exchange → Prop := fun result t =>
    ∃ db' calls trials last, t = (⟨db', none⟩, calls) ∧
      Acquired F schema meanwhile settings trials last db db' calls result
  have hend : ∀ {r t}, Polled F schema meanwhile settings.retryInterval db [] more r t →
      p (verdict (more + 1) (more * settings.retryInterval) r) t := by
    intro r t ⟨trials, last, db', rest, ht, hpolls, hlength, hheld, hresult, hfull⟩
    have hslept := slept_of_polls hpolls
    rw [List.length_append, List.length_singleton, Nat.succ_mul] at hslept
    refine ⟨db', rest, trials, last, ht, hpolls, hheld, ?_, ?_, ?_, ?_, ?_⟩
    · omega
    · intro hlast
      rw [hfull (hresult ▸ hlast), hmore]
    · omega
    · intro hid
      subst hid
      rw [← hresult]
      exact hpolls.kept (more + 1) (more * settings.retryInterval)
    · rw [hmore, hresult]
      -- the time only counts where the attempts were used up
      cases r with
      | error e => rfl
      | ok taken =>
        cases taken with
        | true => rfl
        | false =>
          rw [hfull rfl] at hslept
          rw [Nat.add_right_cancel hslept]
  have hmeets : Meets (dialogue (Link.amid meanwhile dialect schema))
      (fun a => p (.ok a)) (fun e => p (.error e))
      (Lock.acquire schema settings) (⟨db, none⟩, []) := by
    rw [Lock.acquire, hmore]
    refine meets_bind.mpr ((meets_tryTimes F hmeanwhile settings.retryInterval more h).mono ?_ ?_)
    · intro b t ht
      cases b with
      | true => exact meets_pure.mpr (hend ht)
      | false => exact meets_throw.mpr (hend ht)
    · exact fun e t ht => hend ht
  have hrun := hmeets.run_noting
  cases hs : (Lock.acquire schema settings).run.run (noting (Link.amid meanwhile dialect schema))
      (⟨db, none⟩, []) with
  | mk result s =>
    rw [hs] at hrun
    obtain ⟨db', calls, trials, last, rfl, hacquired⟩ := hrun
    exact ⟨result, db', calls, trials, last, rfl, hacquired⟩

/-- A database whose lock is held. -/
def heldLock : Instance where
  data := Data.put {} (ControlTable.lock.inSchema "ordo") [[.boolean true]]

/-- The holder of the lock lets go of it. -/
def letGo (db : Instance) : Instance :=
  { db with data := db.data.put (ControlTable.lock.inSchema "ordo") [[.boolean false]] }

/-- The lock is held at first and is free at the second attempt. -/
theorem acquire_outcome_heldLock :
    ∃ result db' calls trials last,
      (Lock.acquire "ordo" ⟨500, 3⟩).run.run
        (noting (Link.amid letGo (.builtin .duckdb) "ordo")) (⟨heldLock, none⟩, []) =
        (result, ⟨db', none⟩, calls) ∧
      Acquired (@Instance.lockFlag [] .duckdb "ordo" (by simp)) "ordo" letGo ⟨500, 3⟩
        trials last heldLock db' calls result ∧
      result = .ok () ∧ db'.data.flag (ControlTable.lock.inSchema "ordo") = some true := by
  have hvalid : (Instance.isolation []).Valid heldLock := by
    refine ⟨?_, rfl⟩
    intro draft hdraft
    cases hdraft
  have hletGo : ∀ db, (Instance.isolation []).Valid db → (Instance.isolation []).Valid (letGo db) :=
    fun db h => ⟨h.drafts, h.scripts⟩
  obtain ⟨result, db', calls, trials, last, hrun, hacquired⟩ :=
    acquire_outcome (Instance.lockFlag .duckdb "ordo" (by simp)) hvalid hletGo ⟨500, 3⟩
  have hresult : ((Lock.acquire "ordo" ⟨500, 3⟩).run.run
      (noting (Link.amid letGo (.builtin .duckdb) "ordo")) (⟨heldLock, none⟩, [])).1 = .ok () := rfl
  have hflag : ((Lock.acquire "ordo" ⟨500, 3⟩).run.run
      (noting (Link.amid letGo (.builtin .duckdb) "ordo"))
      (⟨heldLock, none⟩, [])).2.1.database.data.flag (ControlTable.lock.inSchema "ordo") =
      some true := rfl
  rw [hrun] at hresult hflag
  exact ⟨result, db', calls, trials, last, hrun, hacquired, hresult, hflag⟩

end SchemaMigration
