import SchemaMigration.Proofs.Cycle.Marking
import SchemaMigration.Proofs.History.Loading

/-!
# SchemaMigration.Proofs.History.Recording

A cycle keeps the log in agreement with what was executed, as long as no write of an entry fails.

* `Ledger` : a database and the migrations that were executed so far.
* `recording` : the calls that leave a ledger consistent; of an entry's write only that it is
  served.
* `Inside`, `Between` : the invariant, inside a transaction or not, and between transactions.
* `Consistent` : what holds wherever a cycle can stop.

`Engine.apply_rests` : a whole cycle leads from a consistent ledger to one.
-/

namespace SchemaMigration

open Sql Database Attempt

/-- A database, and the migrations that were executed with success so far, oldest first. -/
structure Ledger where
  service : Service
  executed : List Migration := []

def Call.writesEntry : Call → Bool
  | .execute _ request | .batch _ request | .query _ request => request.isEntry
  | _ => false

/-- No migration that runs once was executed when its name had been executed before. -/
def Once (executed : List Migration) : Prop :=
  executed.Pairwise fun earlier later => later.parameters.run = .once → earlier.name ≠ later.name

/-- Contents whose log agrees with some executions, and, if `present`, that have a log. -/
structure Tells (schema : String) (past : List Migration) (present : Bool) (data : Data) :
    Prop where
  agrees : Agrees (logRows schema data) past
  log : present = true → hasLog schema data = true

/-- The contents and those of the open transaction tell the executions so far. -/
structure Inside (schema : String) (past : List Migration) (present : Bool) (w : Ledger) :
    Prop where
  executed : w.executed = past
  data : Tells schema past present w.service.data
  draft : ∀ {data}, w.service.draft = some data → Tells schema past present data

/-- The same with no transaction open. -/
structure Between (schema : String) (past : List Migration) (present : Bool) (w : Ledger) :
    Prop extends Inside schema past present w where
  closed : w.service.draft = none

/-- What holds wherever a cycle can stop. -/
def Consistent (schema : String) (w : Ledger) : Prop :=
  Once w.executed ∧ Inside schema w.executed false w

/-- The calls of a cycle on a ledger. All of them may fail apart from the writes of entries, and
wherever another call stands the ledger is consistent. -/
def recording (schema : String) : Protocol Ledger where
  allows w c := c.writesEntry = false → Consistent schema w
  answers w c reply w' :=
    Answers schema (fun c => c.writesEntry = false) w.service c reply w'.service ∧
      w'.executed = w.executed

variable {schema : String} {past : List Migration} {present : Bool} {w : Ledger}

namespace Tells

variable {data data' : Data}

theorem weaken (h : Tells schema past present data) : Tells schema past false data :=
  ⟨h.agrees, fun hp => by cases hp⟩

theorem change (h : Tells schema past present data)
    (hc : SameLog schema data data' ∨ Moved schema data data') :
    Tells schema past present data' := by
  rcases hc with ⟨hrows, hlog⟩ | ⟨key, cell, hrows, hlog⟩
  · exact ⟨hrows ▸ h.agrees, fun hp => hlog (h.log hp)⟩
  · exact ⟨hrows ▸ h.agrees.moved _ cell, fun hp => hlog (h.log hp)⟩

end Tells

theorem Between.of_closed (he : w.executed = past) (hd : Tells schema past present w.service.data)
    (hc : w.service.draft = none) : Between schema past present w where
  executed := he
  data := hd
  draft hdraft := by rw [hc] at hdraft; cases hdraft
  closed := hc

namespace Inside

theorem consistent (h : Inside schema past present w) (ho : Once past) : Consistent schema w := by
  obtain ⟨rfl, hdata, hdraft⟩ := h
  exact ⟨ho, rfl, hdata.weaken, fun hd => (hdraft hd).weaken⟩

theorem view {scope : Scope} {data : Data} (h : Inside schema past present w)
    (hv : w.service.view scope = some data) : Tells schema past present data := by
  cases scope with
  | direct => cases hv; exact h.data
  | transaction => exact h.draft hv

theorem store {scope : Scope} {data data' : Data} (h : Inside schema past present w)
    (hv : w.service.view scope = some data)
    (hc : SameLog schema data data' ∨ Moved schema data data') :
    Inside schema past present { w with service := w.service.store scope data' } := by
  have htells := (h.view hv).change hc
  cases scope with
  | direct => exact ⟨h.executed, htells, h.draft⟩
  | transaction =>
    refine ⟨h.executed, h.data, fun hd => ?_⟩
    cases hd
    exact htells

theorem closed (h : Inside schema past present w) :
    Between schema past present { w with service := w.service.closed } :=
  .of_closed h.executed h.data rfl

end Inside

/-- Every call that writes no entry keeps the invariant. -/
theorem keeps_inside (ho : Once past) {c : Call} (hc : c.writesEntry = false) :
    (recording schema).Keeps (Inside schema past present) c := by
  intro w hw
  refine ⟨fun _ => hw.consistent ho, ?_⟩
  rintro reply ⟨service', executed'⟩ ⟨ha, rfl⟩
  cases ha with
  | begin =>
    refine ⟨hw.executed, hw.data, fun hd => ?_⟩
    cases hd
    exact hw.data
  | commit hd => exact ⟨hw.executed, hw.draft hd, fun hnone => by cases hnone⟩
  | commitUnknown hd => exact ⟨hw.executed, hw.draft hd, fun hnone => by cases hnone⟩
  | commitFails => exact hw.closed.toInside
  | rollback => exact hw.closed.toInside
  | rollbackFails => exact hw.closed.toInside
  | abandon => exact hw.closed.toInside
  | execute hv he => exact hw.store hv (he.logRows_cases hc)
  | executeUnknown hv he => exact hw.store hv (he.logRows_cases hc)
  | batch hv he => exact hw.store hv (he.logRows_cases hc)
  | batchTorn hv ht => exact hw.store hv (ht.sameLog hc)
  | query hv he => exact hw.store hv (he.logRows_cases hc)
  | _ => exact hw

/-- A call outside of transactions opens none. -/
theorem draft_of_answers {mayFail : Call → Prop} {s s' : Service} {c : Call} {reply : c.Reply}
    (ha : Answers schema mayFail s c reply s') (hs : s.draft = none) (hc : c ≠ .begin) :
    s'.draft = none := by
  have hstore : ∀ {scope data data'}, s.view scope = some data →
      (s.store scope data').draft = none := by
    intro scope data data' hv
    cases scope with
    | direct => exact hs
    | transaction => rw [Service.view, hs] at hv; cases hv
  cases ha with
  | begin => exact absurd rfl hc
  | execute hv => exact hstore hv
  | executeUnknown hv => exact hstore hv
  | batch hv => exact hstore hv
  | batchTorn hv => exact hstore hv
  | query hv => exact hstore hv
  | beginFails => exact hs
  | sleep => exact hs
  | executeFails => exact hs
  | executeRefused => exact hs
  | queryRefused => exact hs
  | queryFails => exact hs
  | _ => rfl

theorem keeps_between (ho : Once past) {c : Call} (hc : c.writesEntry = false)
    (hb : c ≠ .begin) : (recording schema).Keeps (Between schema past present) c := by
  intro w hw
  have hkeeps := keeps_inside ho hc w hw.toInside
  exact ⟨hkeeps.1, fun reply w' ha =>
    ⟨hkeeps.2 reply w' ha, draft_of_answers ha.1 hw.closed hb⟩⟩

theorem keeps_ending (ho : Once past) {c : Call} (hc : c.writesEntry = false)
    (hend : ∀ {s s' reply}, Answers schema (fun c => c.writesEntry = false) s c reply s' →
      s'.draft = none) (w : Ledger) (hw : Inside schema past present w) :
    (recording schema).allows w c ∧ ∀ reply w', (recording schema).answers w c reply w' →
      Between schema past present w' := by
  have hkeeps := keeps_inside ho hc w hw
  exact ⟨hkeeps.1, fun reply w' ha => ⟨hkeeps.2 reply w' ha, hend ha.1⟩⟩

theorem recording_brackets (ho : Once past) :
    (recording schema).Brackets (Between schema past present) (Inside schema past present) where
  begin w hw := by
    have hkeeps := keeps_inside (c := .begin) ho rfl w hw.toInside
    refine ⟨hkeeps.1, fun reply w' ha => ⟨fun _ => hkeeps.2 reply w' ha, ?_⟩⟩
    rintro e rfl
    refine ⟨hkeeps.2 _ w' ha, ?_⟩
    obtain ⟨service', executed'⟩ := w'
    obtain ⟨ha, -⟩ := ha
    cases ha
    exact hw.closed
  commit := keeps_ending ho rfl fun ha => by cases ha <;> rfl
  rollback := keeps_ending ho rfl fun ha => by cases ha <;> rfl
  abandon := keeps_ending ho rfl fun ha => by cases ha; rfl

def Ledger.note (m : Migration) (w : Ledger) : Ledger := { w with executed := w.executed ++ [m] }

/-- What is planned for a migration fits the executions so far. -/
structure Planned.Tallies (past : List Migration) (planned : Planned) : Prop where
  logged : planned.logged = true ↔ ∃ m ∈ past, m.name = planned.migration.name
  fresh : planned.status = some .new → planned.logged = false

theorem Between.noted {m : Migration} {data : Data} (h : Between schema past true w)
    (ha : Agrees (logRows schema data) (past ++ [m])) (hlog : hasLog schema data = true) :
    Between schema (past ++ [m]) true
      ⟨w.service.store .direct data, (w.note m).executed⟩ := by
  refine .of_closed ?_ ⟨ha, fun _ => hlog⟩ h.closed
  rw [Ledger.note, h.executed]

/-- The entry of a migration that was executed last brings the log in agreement again. The write
is served, and the log does not refuse it. -/
theorem Engine.meets_record {planned : Planned} (hw : Between schema past true w)
    (hp : planned.Tallies past) :
    Meets (recording schema)
      (fun _ t => Between schema (past ++ [planned.migration]) true t) (fun _ _ => False)
      (record planned) (w.note planned.migration) := by
  have hlog : hasLog schema w.service.data = true := hw.data.log rfl
  rw [record]
  split
  · rename_i hlogged
    refine meets_bind.mpr (meets_execute.mpr ⟨fun h => (by cases h), ?_⟩)
    rintro reply ⟨service', executed'⟩ ⟨ha, rfl⟩
    cases ha with
    | execute hv he =>
      cases hv
      obtain ⟨hrows, hlog'⟩ := logRows_update he
      refine hw.noted ?_ hlog'
      rw [hrows]
      exact hw.data.agrees.updated (hp.logged.mp hlogged) _ _
    | executeUnknown _ _ hf => cases hf
    | executeFails hf => cases hf
    | executeRefused hv hr =>
      cases hv
      exact absurd hr (update_not_refused hlog)
  · rename_i hlogged
    have hnew : ∀ e ∈ past, e.name ≠ planned.migration.name := fun e he hname =>
      hlogged (hp.logged.mpr ⟨e, he, hname⟩)
    refine meets_bind.mpr (meets_execute.mpr ⟨fun h => (by cases h), ?_⟩)
    rintro reply ⟨service', executed'⟩ ⟨ha, rfl⟩
    cases ha with
    | execute hv he =>
      cases hv
      obtain ⟨hrows, hlog'⟩ := logRows_insert he
      refine hw.noted ?_ hlog'
      rw [hrows]
      exact hw.data.agrees.inserted hnew ⟨_, _, _, rfl⟩
    | executeUnknown _ _ hf => cases hf
    | executeFails hf => cases hf
    | executeRefused hv hr =>
      cases hv
      obtain ⟨row, hrow, hkey⟩ := insert_refused hlog hr
      obtain ⟨m, hm, hname⟩ := (hw.data.agrees.exists_row_iff _).mp ⟨row, hrow, hkey⟩
      exact absurd (Name.text_injective hname) (hnew m hm)

theorem Sieve.of_chain {sieves : List Sieve} {planned : Planned}
    (h : chain sieves planned = .ok true) : ∀ sieve ∈ sieves, sieve planned = .ok true := by
  induction sieves with
  | nil => exact fun _ hs => by cases hs
  | cons sieve rest ih =>
    rw [chain] at h
    cases hsieve : sieve planned with
    | error e => rw [hsieve] at h; cases h
    | ok kept =>
      cases hrest : chain rest planned with
      | error e => rw [hsieve, hrest] at h; cases h
      | ok others =>
        rw [hsieve, hrest] at h
        obtain ⟨rfl, rfl⟩ := (Bool.and_eq_true_iff.mp (Except.ok.inj h))
        intro s hs
        rcases List.mem_cons.mp hs with rfl | hs
        · exact hsieve
        · exact ih hrest s hs

/-- What runs once is kept only while it is new. -/
theorem Sieve.new_of_once {environment : Option String} {planned : Planned}
    (h : standard environment planned = .ok true)
    (hr : planned.migration.parameters.run = .once) : planned.status = some .new := by
  have hruns : runs planned = .ok true := of_chain h runs (by simp)
  rw [runs] at hruns
  split at hruns
  · cases hruns
  · rename_i status hs
    rw [hr] at hruns
    cases status with
    | new => exact hs
    | applied => cases hruns
    | bodyChanged => cases hruns

theorem Once.append {m : Migration} (h : Once past)
    (hm : m.parameters.run = .once → ∀ e ∈ past, e.name ≠ m.name) : Once (past ++ [m]) := by
  refine List.pairwise_append.mpr ⟨h, List.pairwise_singleton _ _, fun e he later hl hr => ?_⟩
  rw [List.mem_singleton.mp hl] at hr ⊢
  exact hm hr e he

theorem Planned.Tallies.append {planned other : Planned} (h : planned.Tallies past)
    (hne : other.migration.name ≠ planned.migration.name) :
    planned.Tallies (past ++ [other.migration]) where
  logged := by
    rw [h.logged]
    constructor
    · rintro ⟨m, hm, hname⟩
      exact ⟨m, List.mem_append_left _ hm, hname⟩
    · rintro ⟨m, hm, hname⟩
      rcases List.mem_append.mp hm with hm | hm
      · exact ⟨m, hm, hname⟩
      · rw [List.mem_singleton.mp hm] at hname
        exact absurd hname hne
  fresh := h.fresh

def Log.Knows (log : Log) (past : List Migration) : Prop :=
  ∀ name : Name, log.contains name.text = true ↔ ∃ m ∈ past, m.name = name

theorem Planned.tallies_compare {log : Log} (h : log.Knows past) (m : Migration) (i : Nat) :
    (Planned.compare log m i).Tallies past where
  logged := h m.name
  fresh hnew := by
    have hstatus : RunStatus.of m (log.get? m.name.text) = .new := Option.some.inj hnew
    show (log.get? m.name.text).isSome = false
    cases hget : log.get? m.name.text with
    | none => rfl
    | some entry =>
      rw [hget, RunStatus.of] at hstatus
      split at hstatus
      · cases hstatus
      · cases hstatus

theorem planned_of_validateOrder {ordered : List Migration} {log : Log} {planned : List Planned}
    (h : validateOrder ordered log = .ok planned) :
    planned = ordered.zipIdx.map fun (m, i) => Planned.compare log m i := by
  simp only [validateOrder] at h
  split at h
  · cases h
  · split at h
    · cases h
    · exact (Except.ok.inj h).symm

theorem names_of_validateOrder {ordered : List Migration} {log : Log} {planned : List Planned}
    (h : validateOrder ordered log = .ok planned) :
    planned.map (·.migration.name) = ordered.map (·.name) := by
  have hfst : (ordered.zipIdx.map Prod.fst).map (·.name) = ordered.map (·.name) := by
    rw [List.zipIdx_map_fst]
  rw [planned_of_validateOrder h, ← hfst, List.map_map, List.map_map]
  rfl

theorem Between.weaken (h : Between schema past present w) : Between schema past false w :=
  .of_closed h.executed h.data.weaken h.closed

/-- The log that is read contains exactly what was executed. -/
theorem Store.meets_load (ho : Once past) (hw : Between schema past present w) :
    Meets (recording schema) (fun log t => Between schema past true t ∧ log.Knows past)
      (fun _ t => Between schema past present t) load w := by
  refine meets_bind.mpr (meets_query.mpr ⟨fun _ => hw.consistent ho, ?_⟩)
  rintro reply ⟨service', executed'⟩ ⟨ha, rfl⟩
  cases ha with
  | query hv he =>
    cases hv
    obtain ⟨hperm, rfl, hlog⟩ := rows_load he
    refine meets_bind.mpr (meets_ofResult.mpr ?_)
    cases hread : readEntries (shownRows _) with
    | error e => exact hw
    | ok entries =>
      exact ⟨.of_closed hw.executed ⟨hw.data.agrees, fun _ => hlog⟩ hw.closed,
        contains_of_agrees hw.data.agrees hperm hread⟩
  | queryRefused => exact hw
  | queryFails => exact hw

namespace Engine

/-- What a step adds to the executions: the migration, or nothing. -/
def Adds (schema : String) (past : List Migration) (m : Migration) (w : Ledger) : Prop :=
  ∃ now, (now = past ∨ now = past ++ [m]) ∧ Once now ∧ Between schema now true w

theorem execute_between (ho : Once past) (migration : Migration) :
    Keeps (recording schema) (Between schema past present) (execute migration) :=
  keeps_execute (recording_brackets ho) (fun _ => keeps_between ho rfl nofun)
    (fun _ => keeps_inside ho rfl) migration

theorem meets_processMarked (engine : Engine) (progress : Progress) {planned : Planned}
    (ho : Once past) (hw : Between schema past true w) (hp : planned.Tallies past) :
    MarkedAttempt.Meets (recording schema) Ledger.note
      (fun _ t => Adds schema past planned.migration t)
      (fun _ t => Adds schema past planned.migration t)
      (engine.processMarked progress planned) w := by
  have hsame : ∀ {t}, Between schema past true t → Adds schema past planned.migration t :=
    fun ht => ⟨past, .inl rfl, ho, ht⟩
  refine MarkedAttempt.meets_ofAttempt_bind.mpr (meets_ofResult.mpr ?_)
  cases hsift : Sieve.standard engine.environment planned with
  | error e => exact hsame hw
  | ok kept =>
    cases kept with
    | false => exact hsame hw
    | true =>
      -- what runs once was kept because the log had no entry, so nothing of its name was executed
      have honce : Once (past ++ [planned.migration]) := by
        refine ho.append fun hr e he hname => ?_
        have hnew := hp.fresh (Sieve.new_of_once hsift hr)
        rw [hp.logged.mpr ⟨e, he, hname⟩] at hnew
        cases hnew
      refine MarkedAttempt.meets_ofAttempt_bind.mpr
        (meets_outcome.mpr ((execute_between ho planned.migration w hw).mono ?_ ?_))
      · intro _ t ht
        -- noted before its entry is written, which the protocol lets no failure come between
        refine MarkedAttempt.meets_bind.mpr (MarkedAttempt.meets_mark.mpr ?_)
        refine MarkedAttempt.meets_ofAttempt_bind.mpr ((meets_record ht hp).mono ?_ ?_)
        · exact fun _ u hu => ⟨_, .inr rfl, honce, hu⟩
        · exact fun _ _ hf => hf.elim
      · intro e t ht
        dsimp only
        split
        · exact hsame ht
        · exact hsame ht

/-- Some executions are told by the log, with no transaction open. -/
def Rests (schema : String) (present : Bool) (w : Ledger) : Prop :=
  ∃ past, Once past ∧ Between schema past present w

theorem meets_processAllMarked (engine : Engine) {planned : List Planned}
    (hnames : (planned.map (·.migration.name)).Nodup) (ho : Once past)
    (hw : Between schema past true w) (hp : ∀ p ∈ planned, p.Tallies past)
    (progress : Progress) :
    MarkedAttempt.Meets (recording schema) Ledger.note (fun _ t => Rests schema true t)
      (fun _ t => Rests schema true t) (engine.processAllMarked progress planned) w := by
  -- on the migrations that are left; what was executed grows on the way
  induction planned generalizing past w progress with
  | nil => exact ⟨past, ho, hw⟩
  | cons first rest ih =>
    rw [List.map_cons, List.nodup_cons] at hnames
    refine MarkedAttempt.meets_bind.mpr
      ((engine.meets_processMarked progress ho hw (hp first List.mem_cons_self)).mono ?_ ?_)
    · rintro progress t ⟨now, hnow, honce, ht⟩
      refine ih hnames.2 honce ht (fun p hmem => ?_) progress
      have htallies := hp p (List.mem_cons_of_mem _ hmem)
      rcases hnow with rfl | rfl
      · exact htallies
      · refine htallies.append fun hname => hnames.1 ?_
        rw [hname]
        exact List.mem_map_of_mem hmem
    · rintro e t ⟨now, -, honce, ht⟩
      exact ⟨now, honce, ht⟩

theorem applyLocked_rests (engine : Engine) {graph : MigrationGraph}
    (hnames : (graph.orderedMigrations.map (·.name)).Nodup) (ho : Once past)
    (hw : Between schema past present w) :
    MarkedAttempt.Meets (recording schema) Ledger.note (fun _ t => Rests schema false t)
      (fun _ t => Rests schema false t) (engine.applyLockedMarked graph) w := by
  have hrests : ∀ {t}, Between schema past true t → Rests schema false t :=
    fun ht => ⟨past, ho, ht.weaken⟩
  refine MarkedAttempt.meets_ofAttempt_bind.mpr
    ((Store.meets_load ho hw).mono ?_ fun _ t ht => ⟨past, ho, ht.weaken⟩)
  rintro log t ⟨ht, hknows⟩
  refine MarkedAttempt.meets_ofAttempt_bind.mpr (meets_ofResult.mpr ?_)
  cases hplan : validateOrder graph.orderedMigrations log with
  | error e => exact hrests ht
  | ok planned =>
    have hrenumber : Keeps (recording schema) (Between schema past true) (renumber log planned) :=
      (Store.keeps_renumber (recording_brackets ho) (fun _ => keeps_inside ho rfl) _).bind
        fun _ => keeps_pure
    refine MarkedAttempt.meets_ofAttempt_bind.mpr
      ((hrenumber t ht).mono ?_ fun _ u hu => hrests hu)
    intro log' u hu
    have hplanned := planned_of_validateOrder hplan
    refine MarkedAttempt.meets_bind.mpr ((engine.meets_processAllMarked ?_ ho hu ?_ _).mono ?_ ?_)
    · rw [names_of_validateOrder hplan]
      exact hnames
    · intro p hp
      rw [hplanned] at hp
      obtain ⟨⟨m, i⟩, -, rfl⟩ := List.mem_map.mp hp
      exact Planned.tallies_compare hknows m i
    · rintro progress v ⟨now, honce, hv⟩
      have hrest : Rests schema false v := ⟨now, honce, hv.weaken⟩
      cases progress.log.unapplied with
      | nil => exact hrest
      | cons name names => exact hrest
    · rintro e v ⟨now, honce, hv⟩
      exact ⟨now, honce, hv.weaken⟩

theorem bracket_rests (engine : Engine) {graph : MigrationGraph}
    (hnames : (graph.orderedMigrations.map (·.name)).Nodup) (ho : Once past)
    (hw : Between schema past false w) :
    MarkedAttempt.Meets (recording schema) Ledger.note (fun _ t => Rests schema false t)
      (fun _ t => Rests schema false t) (engine.bracketMarked graph) w := by
  have hacquire : Keeps (recording schema) (Between schema past false)
      (Lock.acquire engine.schema engine.lock) :=
    Lock.keeps_acquire (recording_brackets ho) (keeps_inside ho rfl) (keeps_inside ho rfl)
      (fun _ => keeps_between ho rfl nofun) _ _
  have hrelease : ∀ result, ∀ {t}, Rests schema false t →
      MarkedAttempt.Meets (recording schema) Ledger.note (fun _ t => Rests schema false t)
        (fun _ t => Rests schema false t) (do
          let released ← MarkedAttempt.ofAttempt (outcome Lock.release)
          MarkedAttempt.ofAttempt (ofResult (verdict result released))) t := by
    rintro result t ⟨now, honce, ht⟩
    have hkeeps : Keeps (recording schema) (Between schema now false) (outcome Lock.release) :=
      (Lock.keeps_release (keeps_between honce rfl nofun)).outcome
    refine MarkedAttempt.meets_ofAttempt_bind.mpr
      ((hkeeps t ht).mono ?_ fun _ u hu => ⟨now, honce, hu⟩)
    intro released u hu
    exact MarkedAttempt.meets_ofAttempt.mpr (meets_ofResult.mpr (ends_same.mpr ⟨now, honce, hu⟩))
  refine MarkedAttempt.meets_ofAttempt_bind.mpr
    ((hacquire w hw).mono ?_ fun _ t ht => ⟨past, ho, ht⟩)
  intro _ t ht
  refine MarkedAttempt.meets_bind.mpr (MarkedAttempt.meets_outcome.mpr
    ((engine.applyLocked_rests hnames ho ht).mono ?_ ?_))
  · exact fun _ _ hu => hrelease _ hu
  · exact fun _ _ hu => hrelease _ hu

/-- A whole cycle leaves the log telling what was executed, also where it is cut off, given that
no two migrations of the graph share a name. -/
theorem apply_rests (engine : Engine) {graph : MigrationGraph}
    (hnames : (graph.orderedMigrations.map (·.name)).Nodup) (hw : Rests schema false w) :
    MarkedAttempt.Meets (recording schema) Ledger.note (fun _ t => Rests schema false t)
      (fun _ t => Rests schema false t) (engine.applyMarked graph) w := by
  obtain ⟨past, ho, hw⟩ := hw
  have hpresent : Keeps (recording schema) (Between schema past false)
      engine.controlTablesPresent :=
    keeps_controlTablesPresent (fun _ => keeps_between ho rfl nofun) engine
  have hcreate : Keeps (recording schema) (Between schema past false)
      (batch .direct (.control .createControlTables [])) :=
    keeps_batch (keeps_between ho rfl nofun)
  refine MarkedAttempt.meets_ofAttempt_bind.mpr
    ((hpresent w hw).mono ?_ fun _ t ht => ⟨past, ho, ht⟩)
  intro present t ht
  cases present with
  | true => exact engine.bracket_rests hnames ho ht
  | false =>
    refine MarkedAttempt.meets_ofAttempt_bind.mpr
      ((hcreate t ht).mono ?_ fun _ u hu => ⟨past, ho, hu⟩)
    exact fun _ u hu => engine.bracket_rests hnames ho hu

end Engine
end SchemaMigration
