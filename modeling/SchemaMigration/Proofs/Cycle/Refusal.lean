import SchemaMigration.Proofs.Cycle.Applying
import SchemaMigration.Proofs.Cycle.Completion
import SchemaMigration.Proofs.Cycle.Release

/-!
# SchemaMigration.Proofs.Cycle.Refusal

A cycle that refuses to begin its work has changed nothing.

* `Request.isWrite` : the statements of migrations and the requests that write to the log.
* `undisturbed` : a database that serves one client alone, each of whose calls may fail.
* `OneLock` : the table of the lock has one row at most.
* `FlagSet` : contents after the flag was set, and before.
* `Restored` : contents that differ in nothing but what the row of the lock has beside its flag.

`Lock.undisturbed_acquire` says what an acquire leaves, `Engine.refused_of_runs` that a refusal
under the lock comes from reading the log, and `refusal_changes_nothing` puts them together.
-/

namespace SchemaMigration

open Sql Database Attempt

/-- A statement of a migration, or a request that inserts, updates or renumbers in the log. -/
def Request.isWrite : Request → Bool
  | .migration _ => true
  | .control .insertLog _ | .control .updateLog _ | .control .updateRunOrder _ => true
  | .control _ _ => false

def Call.isWrite : Call → Bool
  | .execute _ request | .batch _ request | .query _ request => request.isWrite
  | _ => false

/-- A commit that reports a conflict has had no effect. -/
def Honest (s : Service) : (c : Call) → c.Reply → Service → Prop
  | .commit, .error e, t => e.isConflict = true → t = s.closed
  | _, _, _ => True

/-- A database that serves one client alone. Any call may fail. -/
def undisturbed (schema : String) : Protocol Service where
  allows _ _ := True
  answers s c reply t := Answers schema anyCall s c reply t ∧ Honest s c reply t

/-- The table of the lock, if there is one, has one row at most. -/
def OneLock (schema : String) (data : Data) : Prop :=
  ∀ rows, data.rows? (ControlTable.lock.inSchema schema) = some rows → rows.length ≤ 1

/-- The flag was clear, and is set. -/
def FlagSet (schema : String) (data data' : Data) : Prop :=
  ∃ cells, data.rows? (ControlTable.lock.inSchema schema) = some [.boolean false :: cells] ∧
    data' = data.put (ControlTable.lock.inSchema schema) [.boolean true :: cells]

/-- The contents as they were, the lock's rows as far as their flags go. -/
structure Restored (schema : String) (data data' : Data) : Prop where
  tables : ∀ ref, ref ≠ ControlTable.lock.inSchema schema → data'.rows? ref = data.rows? ref
  flags : (data'.rows? (ControlTable.lock.inSchema schema)).map (·.map List.head?) =
    (data.rows? (ControlTable.lock.inSchema schema)).map (·.map List.head?)
  journal : data'.journal = data.journal
  ticks : data'.ticks = data.ticks

theorem Restored.refl {schema : String} (data : Data) : Restored schema data data :=
  ⟨fun _ _ => rfl, rfl, rfl, rfl⟩

variable {schema : String} {data data' : Data}

theorem FlagSet.restored (h : FlagSet schema data data') :
    Restored schema data
      (data'.put (ControlTable.lock.inSchema schema) [[.boolean false]]) := by
  obtain ⟨cells, hrows, rfl⟩ := h
  refine ⟨fun ref hne => ?_, ?_, rfl, rfl⟩
  · rw [Data.rows?_put_of_ne _ hne, Data.rows?_put_of_ne _ hne]
  · rw [Data.rows?_put_self, hrows]
    rfl

/-! ## The lock -/

theorem Sql.Cell.eq_boolean_of_value {cell : Cell} {flag : Bool} (h : cell.value = .bool flag) :
    cell = .boolean flag := by
  cases cell with
  | boolean other => cases h; rfl
  | integer type number =>
    rw [Cell.value, Cell.integerValue] at h
    split at h
    · cases h
    · split at h <;> cases h
  | timestamp unit count =>
    rw [Cell.value] at h
    split at h <;> cases h
  | _ => cases h

/-- What is read as a flag is one. -/
theorem exists_cells_of_bool {row : List Cell} {flag : Bool}
    (h : (⟨row.map Cell.value⟩ : Row).bool 0 = .ok flag) :
    ∃ cells, row = .boolean flag :: cells := by
  cases row with
  | nil => cases h
  | cons cell cells =>
    refine ⟨cells, congrArg (· :: cells) (Cell.eq_boolean_of_value ?_)⟩
    have hget : (⟨(cell :: cells).map Cell.value⟩ : Row).get 0 = .ok cell.value := rfl
    rw [Row.bool, Row.read, hget] at h
    cases hvalue : cell.value with
    | bool other =>
      rw [hvalue] at h
      cases h
      rfl
    | _ =>
      rw [hvalue] at h
      cases h

namespace Lock

/-- What an attempt leaves: the flag is set, or nothing has changed. -/
def Attempted (schema : String) (data : Data) (result : Except CycleError Bool) (t : Service) :
    Prop :=
  (result = .ok true ∧ ∃ data', FlagSet schema data data' ∧ t = { data := data' }) ∨
    (result ≠ .ok true ∧ t = { data })

/-- What an attempt that fails leaves. Only of a conflict it is known to have changed nothing. -/
def Broken (data : Data) (e : CycleError) (t : Service) : Prop :=
  Unrefused e ∧ (e.isConflict = true → t = { data })

theorem undisturbed_abandon {s : Service} {e : CycleError} (he : Unrefused e) :
    (undisturbed schema).allows s .abandon ∧
      ∀ reply t, (undisturbed schema).answers s .abandon reply t → Broken s.data e t := by
  refine ⟨trivial, ?_⟩
  rintro reply t ⟨ha, -⟩
  cases ha
  exact ⟨he, fun _ => rfl⟩

theorem undisturbed_rollback (s : Service) {result : Except CycleError Bool}
    (hresult : result ≠ .ok true) :
    Meets (undisturbed schema) (fun _ t => Attempted schema s.data result t) (Broken s.data)
      Ending.rollback.finish s := by
  refine meets_ofReply.mpr ⟨trivial, ?_⟩
  rintro reply t ⟨ha, -⟩
  cases ha with
  | rollback => exact .inr ⟨hresult, rfl⟩
  | rollbackFails => exact ⟨rfl, fun _ => rfl⟩

theorem undisturbed_commit {draft : Data} (hset : FlagSet schema data draft) :
    Meets (undisturbed schema) (fun _ t => Attempted schema data (.ok true) t) (Broken data)
      Ending.commit.finish { data, draft := some draft } := by
  refine meets_ofReply.mpr ⟨trivial, ?_⟩
  rintro reply t ⟨ha, honest⟩
  cases ha with
  | commit hdraft =>
    cases hdraft
    exact .inl ⟨rfl, draft, hset, rfl⟩
  | commitUnknown => exact ⟨rfl, honest⟩
  | commitFails => exact ⟨rfl, honest⟩

/-- The row of the lock is read: its flag is the one that counts. -/
theorem undisturbed_readFlag {post : List Row → Service → Prop}
    {fails : CycleError → Service → Prop} {s : Service} {draft : Data}
    (hdraft : s.draft = some draft)
    (hok : ∀ rows, draft.rows? (ControlTable.lock.inSchema schema) = some rows →
      post ((rows.take 1).map fun cells => ⟨cells.map Cell.value⟩) s)
    (hfails : ∀ e, fails (.database e) s) :
    Meets (undisturbed schema) post fails (query .transaction (.control .isLocked [])) s := by
  refine meets_query.mpr ⟨trivial, ?_⟩
  rintro reply t ⟨ha, -⟩
  cases ha with
  | query hv he =>
    cases hdraft.symm.trans hv
    cases he with
    | control hp =>
      obtain ⟨rows, hrows, hperform⟩ := performOn_of_perform rfl hp
      cases hperform
      rw [Service.store_view hv]
      exact hok rows hrows
  | queryRefused => exact hfails _
  | queryFails => exact hfails _

/-- The flag is set in the draft, or the call fails. -/
theorem undisturbed_setFlag {post : Nat → Service → Prop} {fails : CycleError → Service → Prop}
    {draft : Data} {cells : List Cell}
    (hrows : draft.rows? (ControlTable.lock.inSchema schema) = some [.boolean false :: cells])
    (hok : post 1 { data, draft := some (draft.put (ControlTable.lock.inSchema schema)
      [.boolean true :: cells]) })
    (hfails : ∀ t : Service, t.data = data → ∀ e, fails (.database e) t) :
    Meets (undisturbed schema) post fails (execute .transaction (.control .acquireLock []))
      { data, draft := some draft } := by
  refine meets_execute.mpr ⟨trivial, ?_⟩
  rintro reply t ⟨ha, -⟩
  cases ha with
  | execute hv he =>
    cases hv
    cases he with
    | control hp =>
      obtain ⟨rows, hfound, hperform⟩ := performOn_of_perform rfl hp
      cases hrows.symm.trans hfound
      cases hperform
      exact hok
  | executeUnknown => exact hfails _ rfl _
  | executeRefused => exact hfails _ rfl _
  | executeFails => exact hfails _ rfl _

theorem undisturbed_attempt (hone : OneLock schema data) :
    Meets (undisturbed schema) (Attempted schema data) (Broken data) (attempt schema) { data } := by
  refine meets_inTransaction.mpr ⟨trivial, ?_⟩
  rintro reply t ⟨ha, -⟩
  cases ha with
  | beginFails => exact ⟨rfl, fun _ => rfl⟩
  | begin =>
    refine meets_bind.mpr (undisturbed_readFlag rfl (fun rows hrows => ?_)
      fun e => undisturbed_abandon rfl)
    cases rows with
    | nil => exact undisturbed_rollback _ nofun
    | cons row rest =>
      obtain rfl : rest = [] := by
        have hlength := hone _ hrows
        rw [List.length_cons] at hlength
        exact List.length_eq_zero_iff.mp (by omega)
      show Meets _ _ _ (ofResult (ofCell ((⟨row.map Cell.value⟩ : Row).bool 0)) >>= _) _
      refine meets_bind.mpr (meets_ofResult.mpr ?_)
      cases hflag : (⟨row.map Cell.value⟩ : Row).bool 0 with
      | error e => exact undisturbed_abandon rfl
      | ok flag =>
        obtain ⟨cells, rfl⟩ := exists_cells_of_bool hflag
        cases flag with
        | true => exact undisturbed_rollback _ nofun
        | false =>
          refine meets_bind.mpr (undisturbed_setFlag hrows ?_ ?_)
          · exact undisturbed_commit ⟨cells, hrows, rfl⟩
          · rintro t rfl e
            exact undisturbed_abandon rfl

/-- To acquire the lock sets the flag, and to be refused it changes nothing. -/
theorem undisturbed_acquire (hone : OneLock schema data) (settings : LockSettings) :
    Meets (undisturbed schema)
      (fun _ t => ∃ data', FlagSet schema data data' ∧ t = { data := data' })
      (fun e t => e.isRefusal = true → t = { data }) (acquire schema settings) { data } := by
  let fails : CycleError → Service → Prop := fun e t => e.isRefusal = true → t = { data }
  have hattempt : ∀ s, s = { data } → Meets (undisturbed schema)
      (Concludes (fun t => ∃ data', FlagSet schema data data' ∧ t = { data := data' })
        (· = { data }) fails)
      (fun e t => if e.isConflict then t = { data } else fails e t) (attempt schema) s := by
    rintro s rfl
    refine (undisturbed_attempt hone).mono ?_ ?_
    · rintro result t (⟨rfl, hset⟩ | ⟨hresult, hsame⟩)
      · exact hset
      · rcases result with e | taken
        · exact fun _ => hsame
        · cases taken with
          | true => exact absurd rfl hresult
          | false => exact hsame
    · rintro e t ⟨hunrefused, hconflict⟩
      split
      · rename_i he
        exact hconflict he
      · exact fun he => absurd he (Bool.eq_false_iff.mp hunrefused)
  have hsleep : ∀ n, (undisturbed schema).Keeps (· = { data }) (.sleep n) := by
    rintro n s rfl
    refine ⟨trivial, ?_⟩
    rintro reply t ⟨ha, -⟩
    cases ha
    rfl
  exact meets_acquire_of_attempt hattempt (fun _ h => h) hsleep (fun _ _ _ h _ => h) settings rfl

/-- A release that succeeds clears the flag. -/
theorem undisturbed_release {rows : List (List Cell)}
    (hrows : data.rows? (ControlTable.lock.inSchema schema) = some rows) :
    Meets (undisturbed schema)
      (fun _ t => t = ⟨data.put (ControlTable.lock.inSchema schema)
        (rows.map fun _ => [.boolean false]), none⟩)
      (fun _ _ => True) release { data } := by
  refine meets_bind.mpr (meets_execute.mpr ⟨trivial, ?_⟩)
  rintro reply t ⟨ha, -⟩
  cases ha with
  | execute hv he =>
    cases hv
    cases he with
    | control hp =>
      obtain ⟨rows', hfound, hperform⟩ := performOn_of_perform rfl hp
      cases hrows.symm.trans hfound
      cases hperform
      exact rfl
  | _ => trivial

end Lock

/-! ## The other parts -/

/-- To read the log leaves everything as it is. -/
theorem Store.undisturbed_load (s : Service) : Keeps (undisturbed schema) (· = s) Store.load := by
  refine Store.keeps_load ?_
  rintro _ rfl
  refine ⟨trivial, ?_⟩
  rintro reply t ⟨ha, -⟩
  cases ha with
  | query hv he =>
    obtain ⟨-, rfl, -⟩ := rows_load he
    exact Service.store_view hv
  | queryRefused => rfl
  | queryFails => rfl

/-- The tables were there, or they were created. -/
def Furnished (schema : String) (data data' : Data) : Prop :=
  presence schema data = .ok true ∧ data' = data ∨
    presence schema data = .ok false ∧ data' = data.createControlTables schema

theorem Furnished.oneLock (h : Furnished schema data data') (hone : OneLock schema data) :
    OneLock schema data' := by
  rcases h with ⟨-, rfl⟩ | ⟨habsent, rfl⟩
  · exact hone
  · intro rows hrows
    cases (createControlTables_of_absent habsent).2.symm.trans hrows
    exact Nat.le_refl 1

theorem Engine.serving_furnish {engine : Engine} {mayFail : Call → Prop} {sent : List Sent} :
    Meets (serving engine.schema mayFail unguarded)
      (fun _ t => ∃ data', Furnished engine.schema data data' ∧ t = ⟨{ data := data' }, sent⟩)
      (fun e t => e.isRefusal = true → t = ⟨{ data }, sent⟩) engine.furnish ⟨{ data }, sent⟩ := by
  refine meets_bind.mpr ((serving_controlTablesPresent trivial).mono ?_ fun _ _ h _ => h.1)
  rintro present t ⟨hpresent, rfl⟩
  cases present with
  | true => exact ⟨data, .inl ⟨hpresent, rfl⟩, rfl⟩
  | false =>
    refine meets_batch_create trivial ⟨_, .inr ⟨hpresent, rfl⟩, rfl⟩ ?_
    exact fun _ _ _ _ h => by cases h

/-- What is left of the tables when a cycle is done with them, or has not got to them. -/
theorem Engine.undisturbed_furnish {engine : Engine} {result : Except CycleError Unit} {t : Service}
    (h : Session.Runs (undisturbed engine.schema).answers engine.furnish.run { data }
      (some result) t) :
    Ends (fun _ t => ∃ data', Furnished engine.schema data data' ∧ t = { data := data' })
      (fun e t => e.isRefusal = true → t = { data }) result t := by
  obtain ⟨sent, hwatched⟩ := (h.mono fun _ _ _ _ ha => ha.1).exists_watched []
  have hend := serving_furnish.of_runs hwatched
  cases result with
  | ok _ =>
    obtain ⟨data', hfurnished, ht⟩ := hend
    exact ⟨data', hfurnished, congrArg Watched.service ht⟩
  | error e => exact fun he => congrArg Watched.service (hend he)

/-! ## Refusals -/

theorem Idle.isWrite {c : Call} (h : Idle c) : c.isWrite = false := by
  cases h with
  | outside h => cases h <;> rfl
  | set => rfl

theorem Store.quiet_load : Keeps transcript (Clean (·.isWrite = false) 0) load :=
  keeps_load (Clean.keeps rfl fun _ _ => rfl)

variable {engine : Engine} {graph : MigrationGraph}

/-- A release after the flag was set, once it goes through. -/
theorem Lock.restored_of_runs {locked : Data} {calls calls' : List Exchange}
    {released : Except CycleError Unit} {t : Service} (hset : FlagSet schema data locked)
    (h : Session.Runs (noted (undisturbed schema).answers) Lock.release.run
      ({ data := locked }, calls) (some released) (t, calls'))
    (hreleased : ∀ x ∈ calls', x.call.isRelease = true → x.failed = false) :
    (∃ reply, calls' = calls ++ [⟨.execute .direct (.control .releaseLock []), reply⟩]) ∧
      released = .ok () ∧ ∃ data', t = { data := data' } ∧ Restored schema data data' := by
  obtain ⟨reply, ⟨-, hcalls⟩, hresult⟩ := of_runs_release h
  have hcalls : calls' = calls ++ [⟨_, reply⟩] := hcalls
  have hsucceeded := hreleased ⟨.execute .direct (.control .releaseLock []), reply⟩
    (by rw [hcalls]; exact List.mem_append_right _ (List.mem_singleton_self _)) rfl
  cases reply with
  | error e => cases hsucceeded
  | ok n =>
    cases hresult
    have hrestored := hset.restored
    obtain ⟨cells, -, rfl⟩ := hset
    have ht := (undisturbed_release (Data.rows?_put_self _ _ _)).of_runs h.known
    exact ⟨⟨_, hcalls⟩, rfl, _, ht, hrestored⟩

/-- Nothing but the control tables may have been added, and no transaction is open. -/
def Untouched (schema : String) (data : Data) (t : Service) : Prop :=
  ∃ data', t = { data := data' } ∧ (Restored schema data data' ∨
    presence schema data = .ok false ∧ Restored schema (data.createControlTables schema) data')

theorem Furnished.untouched {data'' : Data} (h : Furnished schema data data')
    (hrestored : Restored schema data' data'') : Untouched schema data { data := data'' } := by
  rcases h with ⟨-, rfl⟩ | ⟨habsent, rfl⟩
  · exact ⟨data'', rfl, .inl hrestored⟩
  · exact ⟨data'', rfl, .inr ⟨habsent, hrestored⟩⟩

/-- An error of the release is one of the database, so a refusal comes out of the work. -/
theorem Engine.refused_of_verdict {σ : Type} {answers : σ → (c : Call) → c.Reply → σ → Prop}
    {s t : σ} {outcome : Except CycleError Report} {released : Except CycleError Unit}
    {e : CycleError} (hrelease : Session.Runs answers Lock.release.run s (some released) t)
    (h : verdict outcome released = .error e) (he : e.isRefusal = true) : outcome = .error e := by
  cases outcome with
  | error e' => exact h
  | ok report =>
    obtain ⟨reply, -, rfl⟩ := Lock.of_runs_release hrelease
    cases reply with
    | ok n => cases h
    | error e' =>
      cases h
      cases he

theorem Engine.untouched_of_refusal {e : CycleError} {final : Service} {calls : List Exchange}
    (hone : OneLock engine.schema data)
    (h : Session.Runs (noted (undisturbed engine.schema).answers) (engine.apply graph).run
      ({ data }, []) (some (.error e)) (final, calls))
    (he : e.isRefusal = true)
    (hreleased : ∀ x ∈ calls, x.call.isRelease = true → x.failed = false) :
    (∀ x ∈ calls, x.call.isWrite = false) ∧ Untouched engine.schema data final := by
  have hstages := stages_of_runs h
  generalize hresult : Except.error e = result at hstages
  cases hstages with
  | unfurnished hfurnish =>
    cases hresult
    have hclean := engine.clean_furnish.of_runs hfurnish.transcript .nil
    obtain rfl : final = { data } := undisturbed_furnish hfurnish.known he
    exact ⟨fun x hx => (hclean.each x hx).isWrite, data, rfl, .inl (.refl data)⟩
  | @unheld _ opened _ hfurnish hacquire =>
    cases hresult
    have hclean := clean_taking hfurnish.transcript hacquire.transcript
    obtain ⟨service, opening⟩ := opened
    obtain ⟨data', hfurnished, hservice⟩ := undisturbed_furnish hfurnish.known
    obtain rfl : service = { data := data' } := hservice
    obtain rfl : final = { data := data' } :=
      (Lock.undisturbed_acquire (hfurnished.oneLock hone) _).of_runs hacquire.known he
    exact ⟨fun x hx => (hclean.each x hx).isWrite, hfurnished.untouched (.refl data')⟩
  | @held outcome released opened taken worked _ hfurnish hacquire hlocked hrelease =>
    have hclean := clean_taking hfurnish.transcript hacquire.transcript
    obtain ⟨service, opening⟩ := opened
    obtain ⟨data', hfurnished, hservice⟩ := undisturbed_furnish hfurnish.known
    obtain rfl : service = { data := data' } := hservice
    obtain ⟨service, taking⟩ := taken
    obtain ⟨locked, hset, hservice⟩ :=
      (Lock.undisturbed_acquire (hfurnished.oneLock hone) _).of_runs hacquire.known
    obtain rfl : service = { data := locked } := hservice
    obtain rfl := refused_of_verdict hrelease hresult.symm he
    obtain ⟨read, hload⟩ := refused_of_runs hlocked he
    have hquiet := Store.quiet_load.of_runs hload.transcript (hclean.imp fun _ => Idle.isWrite)
    obtain ⟨service, working⟩ := worked
    obtain rfl : service = { data := locked } :=
      (Store.undisturbed_load _).of_runs hload.known rfl
    obtain ⟨⟨reply, hcalls⟩, -, data'', rfl, hrestored⟩ :=
      Lock.restored_of_runs hset hrelease hreleased
    refine ⟨?_, hfurnished.untouched hrestored⟩
    rw [hcalls]
    exact List.forall_mem_append.mpr ⟨hquiet.each, List.forall_mem_singleton.mpr rfl⟩

/-- A cycle that refuses to begin its work has sent no statement of a migration and written nothing
to the log, and the flag of the lock is as it was if its release goes through. All that can have
changed is that the control tables were created where both were absent. Once the order is valid
and all migrations were met, so was every entry of the log. -/
theorem refusal_changes_nothing (hone : OneLock engine.schema data) :
    (∀ e final calls, Session.Runs (noted (undisturbed engine.schema).answers)
        (engine.apply graph).run ({ data }, []) (some (.error e)) (final, calls) →
      e.isRefusal = true →
      (∀ x ∈ calls, x.call.isRelease = true → x.failed = false) →
      (∀ x ∈ calls, x.call.isWrite = false) ∧ Untouched engine.schema data final) ∧
    ∀ log planned, validateOrder graph.orderedMigrations log = .ok planned →
      ∀ calls progress calls', Session.Runs transcribed
          (Engine.renumber log planned >>= fun log => engine.processAll { log } planned).run calls
          (some (.ok progress)) calls' →
        (∀ entry ∈ progress.log.entries, entry.applied = true) ∧ progress.log.unapplied = [] := by
  refine ⟨fun e final calls => Engine.untouched_of_refusal hone, fun log planned hvalid => ?_⟩
  intro calls progress calls' h
  have hpending : progress.log.Pending [] := (engine.yields_loop hvalid).of_runs h
  exact ⟨hpending.applied, hpending.unapplied⟩

/-- The contents of a schema with a log entry that has one column. -/
def truncatedLog (flag : Bool) : Data where
  tables := [⟨ControlTable.log.inSchema "ordo", [[.text "base"]]⟩,
    ⟨ControlTable.lock.inSchema "ordo", [[.boolean flag]]⟩]

theorem control_selectLog_truncated (flag : Bool) :
    (truncatedLog flag).control "ordo" .selectLog [] =
      .ok (truncatedLog flag, { rows := [[.text "base"]] }) := by
  have hrows : (truncatedLog flag).rows? (ControlTable.log.inSchema "ordo") =
      some [[.text "base"]] := rfl
  refine (perform_on rfl hrows _ _).trans ?_
  simp only [Request.statement, Data.performOn, List.mergeSort_singleton]

/-- The calls of a cycle that cannot read the log. -/
def truncatedCalls : List Exchange := [
  ⟨.query .direct (.control .tableExists [.text "ordo", .text ControlTable.log.name]),
    .ok [⟨[.bool true]⟩]⟩,
  ⟨.query .direct (.control .tableExists [.text "ordo", .text ControlTable.lock.name]),
    .ok [⟨[.bool true]⟩]⟩,
  ⟨.begin, .ok ()⟩, ⟨.query .transaction (.control .isLocked []), .ok [⟨[.bool false]⟩]⟩,
  ⟨.execute .transaction (.control .acquireLock []), .ok 1⟩, ⟨.commit, .ok ()⟩,
  ⟨.query .direct (.control .selectLog []), .ok [⟨[.text "base"]⟩]⟩,
  ⟨.execute .direct (.control .releaseLock []), .ok 1⟩]

theorem refusal_changes_nothing_truncated :
    ∃ final,
      Session.Runs (noted (undisturbed "ordo").answers) (singleEngine.apply singleGraph).run
        ({ data := truncatedLog false }, [])
        (some (.error (.unreadableEntry "base" (.columns 1)))) (final, truncatedCalls) ∧
      (∀ x ∈ truncatedCalls, x.call.isRelease = true → x.failed = false) ∧
      (∀ x ∈ truncatedCalls, x.call.isWrite = false) ∧
      Untouched "ordo" (truncatedLog false) final := by
  have hone : OneLock singleEngine.schema (truncatedLog false) := by
    rintro rows hrows
    cases hrows
    exact Nat.le_refl 1
  have hreleased : ∀ x ∈ truncatedCalls, x.call.isRelease = true → x.failed = false := by decide
  have hrun : Session.Runs (noted (undisturbed "ordo").answers)
      (singleEngine.apply singleGraph).run ({ data := truncatedLog false }, [])
      (some (.error (.unreadableEntry "base" (.columns 1))))
      ({ data := truncatedLog false }, truncatedCalls) := by
    refine .noted_call ⟨.query rfl (.control rfl), trivial⟩ ?_
    refine .noted_call ⟨.query rfl (.control rfl), trivial⟩ ?_
    refine .noted_call ⟨.begin, trivial⟩ ?_
    refine .noted_call ⟨.query rfl (.control rfl), trivial⟩ ?_
    refine .noted_call ⟨.execute rfl (.control rfl), trivial⟩ ?_
    refine .noted_call ⟨.commit rfl, trivial⟩ ?_
    refine .noted_call ⟨.query rfl (.control (control_selectLog_truncated true)), trivial⟩ ?_
    refine .noted_call ⟨.execute rfl (.control rfl), trivial⟩ ?_
    exact .done _ _
  exact ⟨_, hrun, hreleased,
    (refusal_changes_nothing hone).1 _ _ _ hrun rfl hreleased⟩

end SchemaMigration
