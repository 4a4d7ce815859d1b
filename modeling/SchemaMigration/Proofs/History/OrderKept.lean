import SchemaMigration.Proofs.Cycle.Enactment

/-!
# SchemaMigration.Proofs.History.OrderKept

The order of the log over any number of cycles, which may be cut off and whose calls may fail.

* `logOrder` : the names in the log, by run order and by name where that is equal.
* `Chronicle` : the contents of a database at successive moments.
* `Advances.sublist` : what a cycle does to the log next keeps the order of the entries.
* `Chronicle.inv` : the invariant of a chronicle.

`log_order_kept` : no entry is lost and no two entries change their order. Once the order was found
valid and the log was renumbered, all entries are at the positions of their migrations, wherever
the cycle stops.
-/

namespace SchemaMigration

open Sql Database Attempt

def rowsOrder (rows : List (List Cell)) : List String :=
  namesByOrder (rows.filterMap StoredEntry.ofCells?)

def logOrder (schema : String) (data : Data) : List String := rowsOrder (logRows schema data)

/-- The contents of a database at successive moments, and at the end. Cycles follow one another,
each with its own graph and engine; any call may fail, and a cycle may stop anywhere. Between
cycles anything but the log may change. -/
inductive Chronicle (schema : String) : List Data → Data → Prop where
  | start {data : Data} (h : Tabular schema data) : Chronicle schema [data] data
  | cycle {moments : List Data} {data : Data} (h : Chronicle schema moments data)
      {migrations : List Migration} {graph : MigrationGraph}
      (hg : MigrationGraph.build migrations = .ok graph) {engine : Engine}
      (hs : engine.schema = schema) {sent : List Sent} {states : List Watched}
      {result : Option (Except CycleError Report)} {stopped : Watched}
      (hr : Session.Passes (watching schema anyCall) (engine.apply graph).run ⟨{ data }, sent⟩
        states result stopped) :
      Chronicle schema (moments ++ states.map (·.service.data)) stopped.service.data
  | elsewhere {moments : List Data} {data : Data} (h : Chronicle schema moments data) {data' : Data}
      (hlog : data'.rows? (ControlTable.log.inSchema schema) =
        data.rows? (ControlTable.log.inSchema schema)) :
      Chronicle schema (moments ++ [data']) data'

variable {environment : Option String} {mayFail : Call → Prop} {ordered : List Migration}
  {entries : List StoredEntry} {course : List Step} {rows rows' : List (List Cell)}
  {schema : String}

/-! ## One change of the log -/

theorem rowsOrder_cells (entries : List StoredEntry) :
    rowsOrder (entries.map StoredEntry.cells) = namesByOrder entries := by
  rw [rowsOrder, filterMap_ofCells?]

/-- In a valid order the log comes in the order of the migrations. -/
theorem Taken.rowsOrder (h : Taken environment mayFail ordered entries course rows)
    (hd : (entries.map (·.name)).Nodup) (hn : (texts ordered).Nodup) :
    rowsOrder rows = (texts ordered).filter
      (· ∈ (written course (inPlace (texts ordered) entries)).map (·.name)) := by
  obtain ⟨horder, hcourse, rfl⟩ := h
  rw [rowsOrder_cells]
  exact (hcourse.placed horder hd hn).namesByOrder hn (hcourse.distinct hd hn)

theorem names_written_subset (course : List Step) (step : Step) (entries : List StoredEntry) :
    (written course entries).map (·.name) ⊆ (written (course ++ [step]) entries).map (·.name) := by
  have hlast : written (course ++ [step]) entries = step.write (written course entries) := by
    rw [written, written, List.foldl_append]
    rfl
  rw [hlast]
  rcases step.names_write (written course entries) with hnames | ⟨-, hnames⟩
  · rw [hnames]
    exact List.Subset.refl _
  · rw [hnames]
    exact List.subset_append_left _ _

theorem Advances.sublist (h : Advances environment mayFail ordered entries rows rows')
    (hd : (entries.map (·.name)).Nodup) (hn : (texts ordered).Nodup) :
    (rowsOrder rows).Sublist (rowsOrder rows') := by
  rcases h with ⟨rfl, hmoved⟩ | ⟨course, step, hbefore, hafter⟩
  · have horder := hmoved.1
    have hnames : (written [] (inPlace (texts ordered) entries)).map (·.name) =
        entries.map (·.name) := names_inPlace _ _
    rw [hmoved.rowsOrder hd hn, rowsOrder_cells, horder, hnames]
  · rw [hbefore.rowsOrder hd hn, hafter.rowsOrder hd hn]
    refine List.monotone_filter_right _ fun name hname => ?_
    rw [decide_eq_true_eq] at hname ⊢
    exact names_written_subset course step _ hname

theorem Reached.tabular {data : Data}
    (h : Reached environment mayFail ordered entries (logRows schema data))
    (hd : (entries.map (·.name)).Nodup) (hn : (texts ordered).Nodup) : Tabular schema data := by
  rcases h with hrows | ⟨course, -, hcourse, hrows⟩
  · exact .of_logRows hrows hd
  · exact .of_logRows hrows (hcourse.distinct hd hn)

/-! ## Over cycles -/

variable {data : Data}

theorem Engine.sublist_of_passes {engine : Engine} {graph : MigrationGraph} {sent : List Sent}
    {states : List Watched} {result : Option (Except CycleError Report)} {stopped : Watched}
    (htab : Tabular engine.schema data) (hn : (texts graph.orderedMigrations).Nodup)
    (hr : Session.Passes (watching engine.schema mayFail) (engine.apply graph).run ⟨{ data }, sent⟩
      states result stopped) :
    let rel := fun w w' : Watched => (logOrder engine.schema w.service.data).Sublist
      (logOrder engine.schema w'.service.data)
    states.Pairwise rel ∧ (∀ w ∈ states, rel ⟨{ data }, sent⟩ w) ∧ ∀ w ∈ states, rel w stopped := by
  refine (serving_apply htab hn).pairwise (fun _ => List.Sublist.refl _)
    (fun _ _ _ h h' => h.trans h') (fun w c hallow reply w' hanswer => ?_) hr
  rcases hallow.2.2 reply w' hanswer with hsame | hadvances
  · rw [logOrder, logOrder, hsame]
  · exact hadvances.sublist htab.distinct hn

theorem Chronicle.inv {moments : List Data} (h : Chronicle schema moments data) :
    Tabular schema data ∧
      (moments.Pairwise fun d d' => (logOrder schema d).Sublist (logOrder schema d')) ∧
      ∀ d ∈ moments, (logOrder schema d).Sublist (logOrder schema data) := by
  induction h with
  | start h => exact ⟨h, by simp, by simp⟩
  | @cycle moments data h migrations graph hg engine hs sent states result stopped hr ih =>
    subst hs
    obtain ⟨htab, hpairs, hpast⟩ := ih
    have hn := nodup_texts hg
    have hreached := Engine.reached_of_runs htab hn hr.runs
    obtain ⟨hstates, hfirst, hlast⟩ := Engine.sublist_of_passes htab hn hr
    refine ⟨hreached.tabular htab.distinct hn, ?_, ?_⟩
    · refine List.pairwise_append.mpr ⟨hpairs, List.pairwise_map.mpr hstates, ?_⟩
      intro d hd d' hd'
      obtain ⟨w, hw, rfl⟩ := List.mem_map.mp hd'
      exact (hpast d hd).trans (hfirst w hw)
    · intro d hd
      rcases List.mem_append.mp hd with hd | hd
      · exact (hpast d hd).trans (hfirst stopped hr.end_mem)
      · obtain ⟨w, hw, rfl⟩ := List.mem_map.mp hd
        exact hlast w hw
  | @elsewhere moments data h data' hlog ih =>
    obtain ⟨htab, hpairs, hpast⟩ := ih
    have hrows : logRows schema data' = logRows schema data := by rw [logRows, hlog, logRows]
    have horder : logOrder schema data' = logOrder schema data := by rw [logOrder, hrows, logOrder]
    refine ⟨?_, ?_, ?_⟩
    · rw [map_cells_storedEntries htab.shape] at hrows
      exact .of_logRows hrows htab.distinct
    · refine List.pairwise_append.mpr ⟨hpairs, by simp, ?_⟩
      intro d hd d' hd'
      rw [List.mem_singleton.mp hd', horder]
      exact hpast d hd
    · intro d hd
      rw [horder]
      rcases List.mem_append.mp hd with hd | hd
      · exact hpast d hd
      · rw [List.mem_singleton.mp hd, horder]

/-- The order of the log over any chronicle. Of two moments, the later one has all entries of the
earlier one in the same order. After a cycle whose first half succeeded, in which the order is
validated and the log renumbered, and which then stopped anywhere in its second half, every run
order is the position of the entry's migration in the order of the graph, no two are equal, and the
log passes the validation for this graph; it can be read if positions are numbers of 64 bits. -/
theorem log_order_kept {moments : List Data} (h : Chronicle schema moments data) :
    (moments.Pairwise fun d d' => (logOrder schema d).Sublist (logOrder schema d')) ∧
    ∀ {migrations : List Migration} {graph : MigrationGraph} {engine : Engine} {sent : List Sent}
      {prepared : Log × List Planned} {opened stopped : Watched}
      {result : Option (Except CycleError Report)},
      MigrationGraph.build migrations = .ok graph → engine.schema = schema →
      Session.Runs (watching schema anyCall) (engine.opening graph).run ⟨{ data }, sent⟩
        (some (.ok prepared)) opened →
      Session.Runs (watching schema anyCall) (engine.closing prepared).run opened result stopped →
      Tabular schema stopped.service.data ∧
      (∀ e ∈ storedEntries schema stopped.service.data, ∃ (i : Nat) (m : Migration),
        graph.orderedMigrations[i]? = some m ∧ m.name.text = e.name ∧ e.runOrder = i) ∧
      ((storedEntries schema stopped.service.data).map (·.runOrder)).Nodup ∧
      (∀ log, Store.readIn schema stopped.service.data = .ok log →
        ∃ planned, validateOrder graph.orderedMigrations log = .ok planned) ∧
      (graph.orderedMigrations.length ≤ 2 ^ 63 →
        ∃ log, Store.readIn schema stopped.service.data = .ok log) := by
  obtain ⟨htab, hpairs, -⟩ := h.inv
  refine ⟨hpairs, ?_⟩
  rintro migrations graph engine sent prepared opened stopped result hg rfl hopening hclosing
  have hn := nodup_texts hg
  obtain ⟨⟨course, horder, hcourse, hrows⟩, hforesee⟩ :=
    engine.taken_of_halves htab hn hopening hclosing
  have hplaced := hcourse.placed horder htab.distinct hn
  have hdistinct := hcourse.distinct htab.distinct hn
  rw [storedEntries_of_logRows hrows]
  refine ⟨.of_logRows hrows hdistinct, ?_, hplaced.runOrder_nodup hdistinct, ?_, ?_⟩
  · intro e he
    obtain ⟨hmem, hidx⟩ := hplaced e he
    obtain ⟨m, hm, hname⟩ := List.mem_map.mp hmem
    obtain ⟨i, hi⟩ := List.getElem?_of_mem hm
    refine ⟨i, m, hi, hname, ?_⟩
    rw [hidx, ← hname, idxOf_texts hn hi]
  · intro log hread
    have hmirror := mirrors_of_readIn hrows hdistinct hread
    exact ⟨_, (validateOrder_eq_ok_iff hmirror).mpr ⟨hplaced.inOrder hn hdistinct, rfl⟩⟩
  · intro hsize
    have hreadable := (exists_readIn_iff (map_cells_storedEntries htab.shape)).mp
      (exists_readIn_of_foresee hforesee)
    exact (exists_readIn_iff hrows).mpr (hcourse.readable htab.distinct hn hsize hreadable
      fun e he => horder.mem he)

/-- Two cycles. The second one has migrations that come between the two of the first one. It logs
one of them, while another one fails, and the last entry moves from position 1 to 3. -/
theorem log_order_kept_shop :
    ∃ moments early later late, Chronicle "ordo" moments early ∧ early ∈ moments ∧
      Chronicle "ordo" (moments ++ later) late ∧ late ∈ later ∧
      logOrder "ordo" early = ["accounts", "views"] ∧
      logOrder "ordo" late = ["accounts", "orders", "views"] ∧
      (logOrder "ordo" early).Sublist (logOrder "ordo" late) ∧
      (∃ e ∈ storedEntries "ordo" early, e.name = "views" ∧ e.runOrder = 1) ∧
      ∃ e ∈ storedEntries "ordo" late, e.name = "views" ∧ e.runOrder = 3 := by
  obtain ⟨prepared, opened, first, early, hopening, hclosing, -, hearly⟩ :=
    Shop.exists_early anyCall
  obtain ⟨prepared', opened', report, late, hopening', hclosing', -, -, -, hlogged⟩ :=
    hearly.exists_late anyCall true fun _ _ _ => trivial
  have hnames : (storedEntries "ordo" late.service.data).map (·.name) =
      ["accounts", "views", "orders"] := hlogged
  obtain ⟨states, hpasses⟩ := (Engine.runs_halves hopening hclosing).passes
  obtain ⟨states', hpasses'⟩ := (Engine.runs_halves hopening' hclosing').passes
  have hstart : Chronicle "ordo" [{}] {} := .start (tabular_of_empty rfl)
  have hfirst := hstart.cycle Shop.build_small rfl hpasses
  have hboth := hfirst.cycle Shop.build_grown rfl hpasses'
  have hmem : early.service.data ∈ [({} : Data)] ++ states.map (·.service.data) :=
    List.mem_append_right _ (List.mem_map_of_mem hpasses.end_mem)
  have hmem' : late.service.data ∈ states'.map (·.service.data) :=
    List.mem_map_of_mem hpasses'.end_mem
  obtain ⟨-, -, hsublist⟩ := List.pairwise_append.mp (log_order_kept hboth).1
  obtain ⟨htab, hpositions, -⟩ :=
    (log_order_kept hfirst).2 Shop.build_grown rfl hopening' hclosing'
  have hn := nodup_texts Shop.build_grown
  have hplaced : Placed (texts Shop.grown.orderedMigrations)
      (storedEntries "ordo" late.service.data) := by
    intro e he
    obtain ⟨i, m, hm, hname, horder⟩ := hpositions e he
    rw [← hname, horder, idxOf_texts hn hm]
    exact ⟨List.mem_map_of_mem (List.mem_of_getElem? hm), rfl⟩
  have horder : logOrder "ordo" late.service.data = ["accounts", "orders", "views"] := by
    have hfiltered := hplaced.namesByOrder hn htab.distinct
    rw [hnames] at hfiltered
    exact hfiltered
  obtain ⟨tick, tick', hdata⟩ := hearly.carries
  have hrows : logRows "ordo" early.service.data = _ := hdata.logRows
  have hviews : "views" ∈ (storedEntries "ordo" late.service.data).map (·.name) := by
    rw [hnames]
    decide
  obtain ⟨e, he, hname⟩ := List.mem_map.mp hviews
  refine ⟨_, _, _, _, hfirst, hmem, hboth, hmem', ?_, horder, hsublist _ hmem _ hmem', ?_, e, he,
    hname, ?_⟩
  · rw [logOrder, hrows, rowsOrder_cells, Shop.namesByOrder_stocked]
  · rw [storedEntries_of_logRows hrows]
    exact ⟨.ofMigration Shop.views 1 (Data.stamp tick') (Data.stamp tick'), by simp [Shop.stocked],
      rfl, rfl⟩
  · rw [(hplaced e he).2, hname]
    rfl

end SchemaMigration
