import SchemaMigration.Proofs.Cycle.Contention

/-!
# SchemaMigration.Proofs.Cycle.Exclusion

At most one of the clients that contend for the lock holds it.

* `Transaction.Sound` : what a transaction has seen of the row, and that it sets no flag that it
  has seen set.
* `Fits` : how a client, its tenure and the lock's row fit together; of a row that is set only the
  client that set it can hold the lock.
* `Fits.served`, `Fits.others` : a call keeps that, for the client that makes it and for the rest.
* `Contention.Reachable.fits` : it holds of every client in every reachable state.

`Contention.lock_excludes` : there is one holder at most, only a holder clears the flag, and the
log and the migrations are touched by the holder alone.
-/

namespace SchemaMigration

variable {ι : Type}

/-- A snapshot that is not outdated shows the row's flag, and the flag is only set over a snapshot
that shows it clear. -/
structure Transaction.Sound (row : LockRow ι) (tx : Transaction) : Prop where
  wrote : tx.wrote = true → ∃ s, tx.snapshot = some s ∧ s.flag = false
  seen : ∀ {s}, tx.snapshot = some s →
    s.version ≤ row.version ∧ (s.version = row.version → s.flag = row.flag)

namespace Transaction.Sound

variable {row row' : LockRow ι} {tx : Transaction}

theorem fresh : Transaction.Sound row {} where
  wrote h := by cases h
  seen h := by cases h

theorem look (h : tx.Sound row) : (tx.look row).version ≤ row.version ∧
    ((tx.look row).version = row.version → (tx.look row).flag = row.flag) := by
  rw [Transaction.look]
  cases hs : tx.snapshot with
  | none => exact ⟨Nat.le_refl _, fun _ => rfl⟩
  | some s => exact h.seen hs

theorem looked (h : tx.Sound row) : (tx.looked row).Sound row where
  wrote hw := by
    obtain ⟨s, hs, hflag⟩ := h.wrote hw
    exact ⟨s, by simp [Transaction.looked, Transaction.look, hs], hflag⟩
  seen hs := by
    cases hs
    exact h.look

theorem updated (h : tx.Sound row) (hf : (tx.look row).flag = false) :
    Transaction.Sound row { tx.looked row with wrote := true } where
  wrote _ := ⟨tx.look row, rfl, hf⟩
  seen hs := h.looked.seen hs

/-- Every snapshot is outdated by a committed update. -/
theorem outdate (h : tx.Sound row) (hv : row'.version = row.version + 1) : tx.Sound row' where
  wrote := h.wrote
  seen hs := by
    have hle := (h.seen hs).1
    exact ⟨by omega, by omega⟩

/-- A transaction that has set the flag and is not outdated finds the row's flag clear. -/
theorem clear_of_wrote (h : tx.Sound row) (hw : tx.wrote = true)
    (hv : (tx.look row).version = row.version) : row.flag = false := by
  obtain ⟨s, hs, hflag⟩ := h.wrote hw
  have hlook : tx.look row = s := by rw [Transaction.look, hs, Option.getD_some]
  rw [← h.look.2 hv, hlook, hflag]

end Transaction.Sound

/-- What is left of a cycle keeps to the rules of the lock and ends without a part in it. -/
def Follows (session : Session (Except CycleError Report)) (t : Tenure) : Prop :=
  session.Meets tenure (fun _ t => t = .idle) t

theorem follows_apply (engine : Engine) (graph : MigrationGraph) :
    Follows (engine.apply graph).run .idle :=
  (engine.apply_idle graph).session rfl

/-- A client, its tenure and the lock's row fit together. -/
structure Fits (row : LockRow ι) (i : ι) (client : Client) (t : Tenure) : Prop where
  follows : Follows client.session t
  sound : ∀ {tx}, client.transaction = some tx → tx.Sound row
  updating : t = .updated → ∃ tx, client.transaction = some tx ∧ tx.wrote = true
  holder : t = .holding → row.flag = true ∧ row.setter = some i

theorem Tenure.Allows.not_stray {t : Tenure} {c : Call} (h : t.Allows c) : c.isStray = false := by
  cases h with
  | outside ho => cases ho <;> rfl
  | set => rfl
  | commit => rfl
  | locked hl => cases hl <;> rfl
  | release => rfl

theorem Tenure.after_eq_updated {t : Tenure} {c : Call} {reply : c.Reply}
    (h : t.after c reply = .updated) :
    ∃ cells, c = .execute .transaction (.control .acquireLock cells) := by
  unfold Tenure.after at h
  split at h
  · exact ⟨_, rfl⟩
  all_goals cases h

theorem Tenure.after_eq_holding {t : Tenure} {c : Call} {reply : c.Reply}
    (h : t.after c reply = .holding) : t = .holding ∨ t = .updated ∧ c = .commit := by
  unfold Tenure.after at h
  split at h
  · split at h <;> cases h
  · cases h
  · exact .inr ⟨rfl, rfl⟩
  · cases h
  · cases h
  · exact .inl rfl

namespace Fits

variable {row row' : LockRow ι} {i : ι} {client : Client} {t : Tenure} {c : Call}
  {reply : c.Reply} {tx' : Option Transaction}

/-- A client without a transaction and without a part in the lock fits any row. -/
theorem idle {session : Session (Except CycleError Report)} (h : Follows session .idle) :
    Fits row i { session } .idle where
  follows := h
  sound htx := by cases htx
  updating hu := by cases hu
  holder hu := by cases hu

theorem allows {next : c.Reply → Session (Except CycleError Report)} (h : Fits row i client t)
    (hc : client.session = .call c next) : t.Allows c := by
  have hfollows := h.follows
  rw [hc] at hfollows
  exact hfollows.1

/-- An update of the row leaves a client fitting that does not hold the lock. -/
theorem outdate (h : Fits row i client t) (hv : row'.version = row.version + 1)
    (ht : t ≠ .holding) : Fits row' i client t where
  follows := h.follows
  sound htx := (h.sound htx).outdate hv
  updating := h.updating
  holder hu := absurd hu ht

/-- How a call of a client that keeps to the rules can change the row. -/
theorem row_cases (h : Fits row i client t) (hallow : t.Allows c)
    (hserve : Serves i row client.transaction c reply row' tx') :
    row' = row ∨ row.flag = false ∧ row' = row.set i ∨
      t = .holding ∧ c = .execute .direct (.control .releaseLock []) ∧ row' = row.clear := by
  cases hserve with
  | commitUpdate htx hw hv => exact .inr (.inl ⟨(h.sound htx).clear_of_wrote hw hv, rfl⟩)
  | clearFlag =>
    cases hallow with
    | outside ho => cases ho
    | locked hl => cases hl
    | release => exact .inr (.inr ⟨rfl, rfl, rfl⟩)
  | stray hs =>
    rw [hallow.not_stray] at hs
    cases hs
  | _ => exact .inl rfl

theorem served_sound (h : Fits row i client t) (hallow : t.Allows c)
    (hserve : Serves i row client.transaction c reply row' tx') :
    ∀ {tx}, tx' = some tx → tx.Sound row' := by
  intro tx htx'
  cases hserve with
  | begin => cases htx'; exact .fresh
  | beginSeen => cases htx'; exact Transaction.Sound.fresh.looked
  | readFlag htx => cases htx'; exact (h.sound htx).looked
  | setFlag htx _ hf => cases htx'; exact (h.sound htx).updated hf
  | setNothing htx => cases htx'; exact (h.sound htx).looked
  | clearFlag => exact (h.sound htx').outdate rfl
  | executeFails => exact h.sound htx'
  | queryFails => exact h.sound htx'
  | apart => exact h.sound htx'
  | stray hs => rw [hallow.not_stray] at hs; cases hs
  | _ => cases htx'

theorem served_updating
    (hserve : Serves i row client.transaction c reply row' tx') (hu : t.after c reply = .updated) :
    ∃ tx, tx' = some tx ∧ tx.wrote = true := by
  obtain ⟨cells, rfl⟩ := Tenure.after_eq_updated hu
  cases hserve with
  | setFlag => exact ⟨_, rfl, rfl⟩
  | setNothing => cases t <;> simp [Tenure.after] at hu
  | executeFails => cases t <;> simp [Tenure.after] at hu
  | apart ha => cases ha
  | stray hs => cases hs

/-- A tenure that goes on or begins fits the row afterwards. -/
theorem served_holder (h : Fits row i client t) (hallow : t.Allows c)
    (hserve : Serves i row client.transaction c reply row' tx') (hu : t.after c reply = .holding) :
    row'.flag = true ∧ row'.setter = some i := by
  rcases Tenure.after_eq_holding hu with rfl | ⟨rfl, rfl⟩
  · rcases h.row_cases hallow hserve with rfl | ⟨-, rfl⟩ | ⟨-, rfl, -⟩
    · exact h.holder rfl
    · exact ⟨rfl, rfl⟩
    · cases hu
  · obtain ⟨tx, htx, hw⟩ := h.updating rfl
    cases hserve with
    | commit htx' hw' =>
      cases htx.symm.trans htx'
      rw [hw] at hw'
      cases hw'
    | commitUpdate => exact ⟨rfl, rfl⟩
    | commitFails => cases hu
    | apart ha => cases ha
    | stray hs => cases hs

theorem served {next : c.Reply → Session (Except CycleError Report)} (h : Fits row i client t)
    (hc : client.session = .call c next)
    (hserve : Serves i row client.transaction c reply row' tx') :
    Fits row' i { session := next reply, transaction := tx' } (t.after c reply) := by
  have hallow := h.allows hc
  have hfollows := h.follows
  rw [hc] at hfollows
  exact ⟨hfollows.2 reply _ rfl, h.served_sound hallow hserve, served_updating hserve,
    h.served_holder hallow hserve⟩

/-- The call of one client leaves every other client fitting. -/
theorem others {j : ι} {other : Client} {u : Tenure} (h : Fits row i client t)
    (hallow : t.Allows c) (hserve : Serves i row client.transaction c reply row' tx')
    (hj : Fits row j other u) (hne : j ≠ i) : Fits row' j other u := by
  rcases h.row_cases hallow hserve with rfl | ⟨hclear, rfl⟩ | ⟨rfl, -, rfl⟩
  · exact hj
  -- the row was clear, so nobody held the lock when the flag was set
  · refine hj.outdate rfl fun hu => ?_
    rw [(hj.holder hu).1] at hclear
    cases hclear
  -- the flag was cleared by its holder, and the row knows only one setter
  · refine hj.outdate rfl fun hu => ?_
    have hsetter := (hj.holder hu).2.symm.trans (h.holder rfl).2
    exact hne (Option.some.inj hsetter)

end Fits

variable [DecidableEq ι]

theorem tenureIn_append (history : List (ι × Exchange)) (i j : ι) (e : Exchange) :
    tenureIn (history ++ [(i, e)]) j =
      if i = j then (tenureIn history j).after e.call e.reply else tenureIn history j := by
  rw [tenureIn, List.foldl_append]
  rfl

namespace Contention

variable {schema : String} {w w' : Contention ι}

def AllFit (w : Contention ι) : Prop := ∀ i, Fits w.row i (w.clients i) (tenureIn w.history i)

theorem Initial.allFit (h : w.Initial) : w.AllFit := by
  intro i
  obtain ⟨report, hdone⟩ := h.done i
  rw [h.history, hdone]
  exact Fits.idle rfl

theorem Step.allFit (h : w.AllFit) (hs : Step schema w w') : w'.AllFit := by
  cases hs with
  | start i hdone engine _ graph =>
    intro j
    by_cases hj : j = i
    · subst hj
      have hidle : tenureIn w.history j = .idle := by
        have hfollows := (h j).follows
        rw [hdone] at hfollows
        exact hfollows
      simp only [Function.update_self, hidle]
      exact Fits.idle (follows_apply engine graph)
    · simp only [Function.update_of_ne hj]
      exact h j
  | call i hcall hserve =>
    intro j
    by_cases hj : j = i
    · subst hj
      simp only [Function.update_self, tenureIn_append, if_true]
      exact (h j).served hcall hserve
    · simp only [Function.update_of_ne hj, tenureIn_append, if_neg (Ne.symm hj)]
      exact (h i).others ((h i).allows hcall) hserve (h j) hj

theorem Reachable.allFit (h : Reachable schema w) : w.AllFit := by
  induction h with
  | initial h => exact h.allFit
  | step _ hs ih => exact hs.allFit ih

/-- The moment before a call that a client made. -/
theorem Reachable.before (h : Reachable schema w) {before after : List (ι × Exchange)} {i : ι}
    {e : Exchange} (hw : w.history = before ++ (i, e) :: after) :
    ∃ v next, Reachable schema v ∧ v.history = before ∧
      (v.clients i).session = .call e.call next := by
  induction h generalizing after with
  | initial h => simp [h.history] at hw
  | @step w w' h hs ih =>
    cases hs with
    | start => exact ih hw
    | @call j c next hcall reply =>
      -- the call of this step is the one in question, or that one was made earlier
      rcases List.eq_nil_or_concat after with rfl | ⟨rest, last, rfl⟩
      · obtain ⟨hbefore, hlast⟩ := List.append_inj' hw rfl
        cases hlast
        exact ⟨w, next, h, hbefore, hcall⟩
      · rw [List.concat_eq_append, ← List.cons_append, ← List.append_assoc] at hw
        exact ih (List.append_inj' hw rfl).1

/-- The lock keeps cycles apart. At any moment at most one client is between its acquire and its
release. A step that clears the flag is the release of a client that holds the lock, and that has
set the flag. A client that touches the log or sends a statement of a migration holds the lock at
that moment, and no other client does. -/
theorem lock_excludes (h : Reachable schema w) :
    (∀ i j, Holds w.history i → Holds w.history j → i = j) ∧
    (∀ w', Step schema w w' → w.row.flag = true → w'.row.flag = false →
      ∃ i reply, Holds w.history i ∧ w.row.setter = some i ∧ w'.history = w.history ++
        [(i, ⟨.execute .direct (.control .releaseLock []), reply⟩)]) ∧
    (∀ before i e after, w.history = before ++ (i, e) :: after → e.call.isGuarded = true →
      Holds before i ∧ ∀ j, j ≠ i → ¬ Holds before j) := by
  have unique : ∀ {v : Contention ι}, Reachable schema v →
      ∀ i j, Holds v.history i → Holds v.history j → i = j := fun hv i j hi hj =>
    Option.some.inj (((hv.allFit i).holder hi).2.symm.trans ((hv.allFit j).holder hj).2)
  refine ⟨unique h, ?_, ?_⟩
  · intro w' hs hset hclear
    cases hs with
    | start => rw [hset] at hclear; cases hclear
    | call i hcall hserve =>
      have hfit := h.allFit i
      rcases hfit.row_cases (hfit.allows hcall) hserve with hrow | ⟨-, hrow⟩ | ⟨hholds, rfl, -⟩
      · rw [hrow, hset] at hclear
        cases hclear
      · rw [hrow] at hclear
        cases hclear
      · exact ⟨i, _, hholds, (hfit.holder hholds).2, rfl⟩
  · intro before i e after hw hguarded
    obtain ⟨v, next, hv, rfl, hcall⟩ := h.before hw
    have hholds : Holds v.history i := ((hv.allFit i).allows hcall).holding hguarded
    exact ⟨hholds, fun j hj hother => hj (unique hv j i hother hholds)⟩

theorem Reachable.start (h : Reachable schema w) (i : ι) {report : Except CycleError Report}
    (hdone : (w.clients i).session = .done report) (engine : Engine) (hs : engine.schema = schema)
    (graph : MigrationGraph) :
    Reachable schema { w with
      clients := Function.update w.clients i { session := (engine.apply graph).run } } :=
  h.step (.start i hdone engine hs graph)

theorem Reachable.call (h : Reachable schema w) (i : ι) {c : Call}
    {next : c.Reply → Session (Except CycleError Report)}
    (hc : (w.clients i).session = .call c next) {reply : c.Reply} {row : LockRow ι}
    {tx : Option Transaction} (hr : Serves i w.row (w.clients i).transaction c reply row tx) :
    Reachable schema {
      row
      clients := Function.update w.clients i { session := next reply, transaction := tx }
      history := w.history ++ [(i, ⟨c, reply⟩)] } :=
  h.step (.call i hc hr)

/-- Two clients before their first cycle. -/
def pair : Contention Bool where
  row := { flag := false, version := 0, setter := none }
  clients _ := { session := .done (.ok {}) }

/-- The two clients read a clear flag and both update it, and the commit of one of them is lost
to the other, which goes on to read the log. -/
theorem lock_excludes_pair :
    ∃ (w : Contention Bool) (before : List (Bool × Exchange)) (e : Exchange),
      Reachable "ordo" w ∧ w.history = before ++ [(false, e)] ∧ e.call.isGuarded = true ∧
      Holds before false ∧ ¬ Holds before true := by
  let engine : Engine := { dialect := .builtin .duckdb, schema := "ordo" }
  let graph : MigrationGraph := ⟨[], ⟨[], []⟩, []⟩
  let lost : DatabaseError := .conflict "write-write conflict"
  have found : ∀ {i row open?} (cells : List Sql.Value), @Serves Bool i row open?
      (.query .direct (.control .tableExists cells)) (.ok [⟨[.bool true]⟩]) row open? :=
    fun _ => .apart rfl _
  have noEntries : ∀ {i row open?}, @Serves Bool i row open?
      (.query .direct (.control .selectLog [])) (.ok []) row open? := .apart rfl _
  have clear : (⟨[.bool false]⟩ : Sql.Row).bool 0 = .ok false := rfl
  have h₀ : Reachable "ordo" pair := .initial ⟨rfl, fun _ => ⟨_, rfl⟩⟩
  have h₁ := (h₀.start false rfl engine rfl graph).start true rfl engine rfl graph
  have h₂ := (h₁.call false rfl (found _)).call false rfl (found _)
  have h₃ := (h₂.call true rfl (found _)).call true rfl (found _)
  have h₄ := (h₃.call false rfl .beginSeen).call true rfl .beginSeen
  have h₅ := (h₄.call false rfl (.readFlag rfl clear)).call true rfl (.readFlag rfl clear)
  have h₆ := (h₅.call false rfl (.setFlag rfl rfl rfl)).call true rfl (.setFlag rfl rfl rfl)
  have h₇ := h₆.call false rfl (.commitUpdate rfl rfl rfl (.ok ()))
  have h₈ := (h₇.call true rfl (.commitFails lost)).call false rfl noEntries
  have hexcl := (lock_excludes h₈).2.2 _ false _ [] rfl rfl
  exact ⟨_, _, _, h₈, rfl, rfl, hexcl.1, hexcl.2 true Bool.noConfusion⟩

end Contention
end SchemaMigration
