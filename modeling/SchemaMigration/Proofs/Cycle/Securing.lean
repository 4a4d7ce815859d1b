import SchemaMigration.Proofs.Cycle.Keeping
import SchemaMigration.Proofs.Database.Serving

/-!
# SchemaMigration.Proofs.Cycle.Securing

The control tables and the lock, as a cycle finds, makes, takes and leaves them.

* `presence` : whether both control tables are there; one without the other is an error.
* `LockClear` : the row of the lock is there and its flag is clear.
* `Beside` : contents with the same log, which have kept the lock's table.

`serving_controlTablesPresent`, `Lock.serving_acquire` and `Lock.serving_release` say what these
parts leave, and why they fail: a call failed, or the contents stood against it.
-/

namespace SchemaMigration

open Sql Database Attempt

def presence (schema : String) (data : Data) : Except CycleError Bool :=
  match (data.rows? (ControlTable.log.inSchema schema)).isSome,
    (data.rows? (ControlTable.lock.inSchema schema)).isSome with
  | true, true => .ok true
  | false, false => .ok false
  | true, false => .error (.controlTableMissing (ControlTable.lock.inSchema schema))
  | false, true => .error (.controlTableMissing (ControlTable.log.inSchema schema))

def Fallible (mayFail : Call → Prop) : Prop := ∃ c, mayFail c

theorem not_fallible_never : ¬ Fallible never := fun ⟨_, h⟩ => h

def LockClear (schema : String) (data : Data) : Prop :=
  ∃ row rest,
    data.rows? (ControlTable.lock.inSchema schema) = some ((.boolean false :: row) :: rest)

/-- Contents with the same log, and with a lock's table if there was one. -/
structure Beside (schema : String) (data data' : Data) : Prop where
  log : data'.rows? (ControlTable.log.inSchema schema) =
    data.rows? (ControlTable.log.inSchema schema)
  lock : (data.rows? (ControlTable.lock.inSchema schema)).isSome = true →
    (data'.rows? (ControlTable.lock.inSchema schema)).isSome = true

variable {schema : String} {mayFail : Call → Prop} {guard : Guard} {data data' : Data}
  {sent : List Sent}

namespace Beside

theorem refl (data : Data) : Beside schema data data := ⟨rfl, id⟩

theorem trans {data'' : Data} (h : Beside schema data data') (h' : Beside schema data' data'') :
    Beside schema data data'' :=
  ⟨h'.log.trans h.log, fun hlock => h'.lock (h.lock hlock)⟩

theorem put_lock (schema : String) (data : Data) (rows : List (List Cell)) :
    Beside schema data (data.put (ControlTable.lock.inSchema schema) rows) where
  log := Data.rows?_put_of_ne data (log_ne_lock schema) rows
  lock _ := by rw [Data.rows?_put_self, Option.isSome_some]

theorem logRows (h : Beside schema data data') : logRows schema data' = logRows schema data := by
  rw [Database.logRows, h.log, Database.logRows]

theorem moves (h : Beside schema data data') :
    guard.moves (Database.logRows schema data) (Database.logRows schema data') := by
  rw [h.logRows]
  exact guard.refl _

end Beside

/-! ## The control tables -/

theorem presence_eq_ok_false (h : presence schema data = .ok false) :
    data.rows? (ControlTable.log.inSchema schema) = none ∧
      data.rows? (ControlTable.lock.inSchema schema) = none := by
  rw [presence] at h
  split at h <;> simp_all

/-- The tables that a cycle creates where it finds none: an empty log and a clear lock. -/
theorem createControlTables_of_absent (h : presence schema data = .ok false) :
    (data.createControlTables schema).rows? (ControlTable.log.inSchema schema) = some [] ∧
      (data.createControlTables schema).rows? (ControlTable.lock.inSchema schema) =
        some [[.boolean false]] := by
  obtain ⟨hlog, hlock⟩ := presence_eq_ok_false h
  have hne := log_ne_lock schema
  have hafter : ((data.put (ControlTable.log.inSchema schema) []).put
      (ControlTable.lock.inSchema schema) []).rows? (ControlTable.lock.inSchema schema) = some [] :=
    Data.rows?_put_self _ _ _
  simp only [Data.createControlTables, Data.ensure, hlog, Data.rows?_put_of_ne _ hne.symm, hlock,
    Data.seed, hafter]
  exact ⟨by rw [Data.rows?_put_of_ne _ hne, Data.rows?_put_of_ne _ hne, Data.rows?_put_self],
    Data.rows?_put_self _ _ _⟩

theorem presence_eq_ok_true (h : presence schema data = .ok true) :
    hasLog schema data = true ∧ (data.rows? (ControlTable.lock.inSchema schema)).isSome = true := by
  rw [presence] at h
  rw [hasLog]
  split at h <;> simp_all

namespace Engine

variable {engine : Engine}

theorem serving_tableExists (table : ControlTable)
    (hholds : guard.holds (logRows engine.schema data)) :
    Meets (serving engine.schema mayFail guard)
      (fun found t => found = (data.rows? (table.inSchema engine.schema)).isSome ∧
        t = ⟨{ data }, sent⟩)
      (fun _ t => t = ⟨{ data }, sent⟩ ∧ Fallible mayFail)
      (engine.tableExists table) ⟨{ data }, sent⟩ :=
  meets_bind.mpr (meets_query_control rfl rfl hholds ⟨rfl, rfl⟩ fun hf _ => ⟨rfl, _, hf⟩)

theorem serving_controlTablesPresent (hholds : guard.holds (logRows engine.schema data)) :
    Meets (serving engine.schema mayFail guard)
      (fun present t => presence engine.schema data = .ok present ∧ t = ⟨{ data }, sent⟩)
      (fun e t => t = ⟨{ data }, sent⟩ ∧
        (Fallible mayFail ∨ presence engine.schema data = .error e))
      engine.controlTablesPresent ⟨{ data }, sent⟩ := by
  have hfails : ∀ (e : CycleError) t, t = (⟨{ data }, sent⟩ : Watched) ∧ Fallible mayFail →
      t = ⟨{ data }, sent⟩ ∧ (Fallible mayFail ∨ presence engine.schema data = .error e) :=
    fun _ _ h => ⟨h.1, .inl h.2⟩
  refine meets_bind.mpr ((serving_tableExists .log hholds).mono ?_ hfails)
  rintro log t ⟨hlog, rfl⟩
  refine meets_bind.mpr ((serving_tableExists .lock hholds).mono ?_ hfails)
  rintro lock t ⟨hlock, rfl⟩
  rw [presence, ← hlog, ← hlock]
  cases log <;> cases lock
  · exact ⟨rfl, rfl⟩
  · exact ⟨rfl, .inr rfl⟩
  · exact ⟨rfl, .inr rfl⟩
  · exact ⟨rfl, rfl⟩

end Engine

/-! ## The lock -/

/-- Why the lock may not be taken: a call can fail, or its flag is not clear. -/
def Blocked (schema : String) (mayFail : Call → Prop) (data : Data) : Prop :=
  Fallible mayFail ∨ ¬ LockClear schema data

namespace Lock

theorem serving_attempt (hlock : (data.rows? (ControlTable.lock.inSchema schema)).isSome = true)
    (hholds : guard.holds (logRows schema data)) :
    Meets (serving schema mayFail guard)
      (fun result t => ∃ data', t = ⟨{ data := data' }, sent⟩ ∧ Beside schema data data' ∧
        (result = .ok true ∨ Blocked schema mayFail data))
      (fun _ t => ∃ data', t = ⟨{ data := data' }, sent⟩ ∧ Beside schema data data' ∧
        Blocked schema mayFail data)
      (attempt schema) ⟨{ data }, sent⟩ := by
  obtain ⟨rows, hrows⟩ := Option.isSome_iff_exists.mp hlock
  have hread : data.control schema .isLocked [] = .ok (data, { rows := rows.take 1 }) :=
    perform_on rfl hrows _ _
  -- of the draft, and whether the flag was set in it
  let good : Ending × Except CycleError Bool → Data → List Sent → Prop := fun r draft sent' =>
    sent' = sent ∧ Beside schema data draft ∧ (r.2 = .ok true ∨ Blocked schema mayFail data)
  let bad : CycleError → List Sent → Prop := fun _ sent' =>
    sent' = sent ∧ Blocked schema mayFail data
  refine meets_transaction good bad hholds
    (fun hf _ => ⟨data, rfl, .refl data, .inl ⟨_, hf⟩⟩) ?_ ?_ ?_ ?_
  · refine meets_bind.mpr (meets_query_control rfl hread hholds ?_
      fun hf _ => ⟨data, sent, rfl, rfl, .inl ⟨_, hf⟩⟩)
    cases rows with
    | nil =>
      have hunclear : ¬ LockClear schema data := by
        rintro ⟨row, rest, hclear⟩
        cases hrows.symm.trans hclear
      exact ⟨data, sent, rfl, rfl, .refl data, .inr (.inr hunclear)⟩
    | cons row rest =>
      have hunclear : (⟨row.map Cell.value⟩ : Row).bool 0 ≠ .ok false →
          ¬ LockClear schema data := by
        rintro hne ⟨cells, others, hclear⟩
        cases hrows.symm.trans hclear
        exact hne rfl
      show Meets _ _ _ (ofResult (ofCell ((⟨row.map Cell.value⟩ : Row).bool 0)) >>= _) _
      refine meets_bind.mpr (meets_ofResult.mpr ?_)
      cases hflag : (⟨row.map Cell.value⟩ : Row).bool 0 with
      | error e =>
        exact ⟨data, sent, rfl, rfl, .inr (hunclear (by rw [hflag]; exact nofun))⟩
      | ok flag =>
        cases flag with
        | true =>
          exact ⟨data, sent, rfl, rfl, .refl data,
            .inr (.inr (hunclear (by rw [hflag]; exact nofun)))⟩
        | false =>
          have hset : data.control schema .acquireLock [] =
              .ok (data.updateRows (ControlTable.lock.inSchema schema) (row :: rest) Data.isClear
                Data.setFlag) :=
            perform_on rfl hrows _ _
          have hbeside := Beside.put_lock schema data
            ((row :: rest).map fun row => if Data.isClear row then Data.setFlag row else row)
          refine meets_bind.mpr (meets_execute_control rfl hset hholds (guard.refl _) ?_
            fun hf _ => ⟨⟨_, sent, rfl, rfl, .inl ⟨_, hf⟩⟩, ⟨_, sent, rfl, rfl, .inl ⟨_, hf⟩⟩⟩)
          refine ⟨_, sent, rfl, rfl, hbeside, ?_⟩
          by_cases hclear : LockClear schema data
          · obtain ⟨cells, others, hclear⟩ := hclear
            cases hrows.symm.trans hclear
            exact .inl rfl
          · exact .inr (.inr hclear)
  · rintro result draft sent' ⟨rfl, hbeside, hresult⟩
    exact ⟨hbeside.moves, ⟨draft, rfl, hbeside, hresult⟩, fun hf _ =>
      ⟨⟨data, rfl, .refl data, .inl ⟨_, hf⟩⟩, ⟨draft, rfl, hbeside, .inl ⟨_, hf⟩⟩⟩⟩
  · rintro result draft sent' ⟨rfl, -, hresult⟩
    exact ⟨⟨data, rfl, .refl data, hresult⟩, fun hf _ => ⟨data, rfl, .refl data, .inl ⟨_, hf⟩⟩⟩
  · rintro e sent' ⟨rfl, hblocked⟩
    exact ⟨data, rfl, .refl data, hblocked⟩

/-- Once an attempt has failed the lock counts as blocked, whatever later ones come to. -/
theorem serving_acquire (settings : LockSettings)
    (hlock : (data.rows? (ControlTable.lock.inSchema schema)).isSome = true)
    (hholds : guard.holds (logRows schema data)) :
    Meets (serving schema mayFail guard)
      (fun _ t => ∃ data', t = ⟨{ data := data' }, sent⟩ ∧ Beside schema data data')
      (fun _ t => ∃ data', t = ⟨{ data := data' }, sent⟩ ∧ Beside schema data data' ∧
        Blocked schema mayFail data)
      (acquire schema settings) ⟨{ data }, sent⟩ := by
  let taken : Watched → Prop := fun t =>
    ∃ data', t = ⟨{ data := data' }, sent⟩ ∧ Beside schema data data'
  let lost : Watched → Prop := fun t =>
    ∃ data', t = ⟨{ data := data' }, sent⟩ ∧ Beside schema data data' ∧ Blocked schema mayFail data
  let start : Watched → Prop := fun t => ∃ data', t = ⟨{ data := data' }, sent⟩ ∧
    Beside schema data data' ∧ (data' = data ∨ Blocked schema mayFail data)
  have hheld : ∀ {data'}, Beside schema data data' → guard.holds (logRows schema data') := by
    intro data' hbeside
    rw [hbeside.logRows]
    exact hholds
  have hattempt : ∀ w, start w → Meets (serving schema mayFail guard)
      (Concludes taken lost fun _ => lost) (fun e t => if e.isConflict then lost t else lost t)
      (attempt schema) w := by
    rintro w ⟨data', rfl, hbeside, hfirst⟩
    have hblocked : Blocked schema mayFail data' → Blocked schema mayFail data := fun h =>
      hfirst.elim (fun hsame => hsame ▸ h) id
    refine (serving_attempt (hbeside.lock hlock) (hheld hbeside)).mono ?_ ?_
    · rintro result t ⟨data'', rfl, hbeside', hresult⟩
      have hboth := hbeside.trans hbeside'
      rcases result with e | flag
      · exact ⟨data'', rfl, hboth, hblocked (hresult.resolve_left nofun)⟩
      · cases flag with
        | true => exact ⟨data'', rfl, hboth⟩
        | false => exact ⟨data'', rfl, hboth, hblocked (hresult.resolve_left nofun)⟩
    · rintro e t ⟨data'', rfl, hbeside', h⟩
      rw [ite_self]
      exact ⟨data'', rfl, hbeside.trans hbeside', hblocked h⟩
  have hstart : ∀ w, lost w → start w := by
    rintro w ⟨data', rfl, hbeside, hblocked⟩
    exact ⟨data', rfl, hbeside, .inr hblocked⟩
  have hsleep : ∀ n, (serving schema mayFail guard).Keeps lost (.sleep n) := by
    rintro n w ⟨data', rfl, hbeside, hblocked⟩
    refine served_control (fun _ => rfl) (hheld hbeside) ⟨_, _, .sleep n⟩ fun reply service ha => ?_
    cases ha
    exact ⟨guard.refl _, data', rfl, hbeside, hblocked⟩
  exact meets_acquire_of_attempt hattempt hstart hsleep (fun _ _ _ h => h) settings
    ⟨data, rfl, .refl data, .inl rfl⟩

theorem serving_release (hlock : (data.rows? (ControlTable.lock.inSchema schema)).isSome = true)
    (hholds : guard.holds (logRows schema data)) :
    Meets (serving schema mayFail guard)
      (fun _ t => ∃ data', t = ⟨{ data := data' }, sent⟩ ∧ Beside schema data data')
      (fun _ t => ∃ data', t = ⟨{ data := data' }, sent⟩ ∧ Beside schema data data' ∧
        Fallible mayFail)
      release ⟨{ data }, sent⟩ := by
  obtain ⟨rows, hrows⟩ := Option.isSome_iff_exists.mp hlock
  have hclear : data.control schema .releaseLock [] =
      .ok (data.updateRows (ControlTable.lock.inSchema schema) rows (fun _ => true)
        fun _ => [.boolean false]) :=
    perform_on rfl hrows _ _
  have hbeside := Beside.put_lock schema data
    (rows.map fun row => if (fun _ => true) row then [Cell.boolean false] else row)
  exact meets_bind.mpr (meets_execute_control rfl hclear hholds hbeside.moves ⟨_, rfl, hbeside⟩
    fun hf _ => ⟨⟨data, rfl, .refl data, _, hf⟩, ⟨_, rfl, hbeside, _, hf⟩⟩)

end Lock
end SchemaMigration
