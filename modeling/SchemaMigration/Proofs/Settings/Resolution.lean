import SchemaMigration.CommandLine.Project
import SchemaMigration.Proofs.Settings.Validity

/-!
# SchemaMigration.Proofs.Settings.Resolution

What a target makes of a configuration that loaded, and a project of that.

* `Resolved.Sound` : what every command relies on.
* `Settings.IsUnknown` : a target is chosen that the configuration does not have.
* `Settings.ResolvesTo` : sound settings, from the target where it says something and from the base
  where it does not.
* `CommandLine.Project.Follows` : the same settings seen from where the program runs.

`resolution_outcome` : whatever loads resolves for every choice but an unknown target, and the
project keeps what was resolved.
-/

namespace SchemaMigration

/-- A schema for the control tables, an address where a server is meant, and at least one attempt to
get the lock. -/
structure Resolved.Sound (resolved : Resolved) : Prop where
  database : resolved.database.Sound
  attempts : 1 ≤ resolved.lock.maxAttempts

namespace Settings

variable {settings : Settings} {choice : Option String} {name : String} {target : Target}

def IsUnknown (settings : Settings) (choice : Option String) : Prop :=
  ∃ name, choice = some name ∧ name ∉ settings.targetNames

/-- The target's database and environment where it has them, and those of the base otherwise. -/
structure ResolvesTo (settings : Settings) (choice : Option String) (resolved : Resolved) :
    Prop where
  sound : resolved.Sound
  base : choice = none →
    resolved.database = settings.database ∧ resolved.environment = settings.environment
  target : ∀ name target, choice = some name → (name, target) ∈ settings.targets →
    resolved.database = target.database.getD settings.database ∧
      resolved.environment = target.environment.or settings.environment
  lock : resolved.lock = settings.lock

theorem exists_target (h : name ∈ settings.targetNames) :
    ∃ target, (name, target) ∈ settings.targets := by
  obtain ⟨⟨_, target⟩, hmem, rfl⟩ := List.mem_map.mp h
  exact ⟨target, hmem⟩

theorem resolve_of_mem (h : Ascending settings.targets) (hmem : (name, target) ∈ settings.targets) :
    settings.resolve (some name) = .ok {
      database := target.database.getD settings.database
      environment := target.environment.or settings.environment
      lock := settings.lock } := by
  rw [resolve, h.lookup_of_mem hmem]

theorem resolve_of_isUnknown (h : settings.IsUnknown choice) :
    ∃ problem, settings.resolve choice = .error problem := by
  obtain ⟨name, rfl, hname⟩ := h
  have hnone : settings.targets.lookup name = none := by
    refine List.lookup_eq_none_iff.mpr fun entry hentry => ?_
    simpa using fun heq : name = entry.1 => hname (heq ▸ List.mem_map_of_mem hentry)
  rw [resolve, hnone]
  exact ⟨_, rfl⟩

theorem Valid.sound_getD (h : settings.Valid) (hmem : (name, target) ∈ settings.targets) :
    (target.database.getD settings.database).Sound := by
  cases hdatabase : target.database with
  | none => exact h.database
  | some database => exact h.targets name target hmem database hdatabase

theorem Loaded.resolvesTo (h : settings.Loaded) (hknown : ¬ settings.IsUnknown choice) :
    ∃ resolved, settings.resolve choice = .ok resolved ∧ settings.ResolvesTo choice resolved := by
  cases choice with
  | none =>
    refine ⟨_, rfl, ⟨h.valid.database, h.valid.attempts⟩, fun _ => ⟨rfl, rfl⟩, ?_, rfl⟩
    intro name target hchoice
    cases hchoice
  | some name =>
    have hname : name ∈ settings.targetNames := by
      by_contra hmissing
      exact hknown ⟨name, rfl, hmissing⟩
    obtain ⟨target, hmem⟩ := exists_target hname
    refine ⟨_, resolve_of_mem h.ascending hmem, ⟨h.valid.sound_getD hmem, h.valid.attempts⟩, nofun,
      ?_, rfl⟩
    intro other target' hchoice hmem'
    cases hchoice
    -- the name is that of one target only
    have hsame := (h.ascending.lookup_of_mem hmem).symm.trans (h.ascending.lookup_of_mem hmem')
    cases hsame
    exact ⟨rfl, rfl⟩

/-- A resolution fails for an unknown target, and for nothing else. -/
theorem Loaded.resolve_cases (h : settings.Loaded) (choice : Option String) :
    (settings.IsUnknown choice ∧ ∃ problem, settings.resolve choice = .error problem) ∨
      (¬ settings.IsUnknown choice ∧ ∃ resolved,
        settings.resolve choice = .ok resolved ∧ settings.ResolvesTo choice resolved) := by
  by_cases hunknown : settings.IsUnknown choice
  · exact .inl ⟨hunknown, resolve_of_isUnknown hunknown⟩
  · exact .inr ⟨hunknown, h.resolvesTo hunknown⟩

end Settings

/-! ## Projects -/

namespace CommandLine
namespace Project

variable {tree : Tree} {options : GlobalOptions} {settings : Settings} {ambient : Option String}

/-- The settings as resolved, but for the environment that the options name and for a database file,
which is seen from the working directory. -/
structure Follows (project : Project) (options : GlobalOptions) (resolved : Resolved) : Prop where
  sound : project.resolved.Sound
  kind : project.resolved.database.kind = resolved.database.kind
  schema : project.resolved.database.schema = resolved.database.schema
  server : resolved.database.kind = .postgres →
    project.resolved.database.path = resolved.database.path
  file : resolved.database.kind = .duckdb →
    project.resolved.database.path = databasePath project.root resolved.database.path
  root : project.root = ⟨options.projectDirectory⟩
  environment : project.resolved.environment = options.environment.or resolved.environment
  lock : project.resolved.lock = resolved.lock

theorem locate_kind (root : Path) (database : DatabaseSettings) :
    (locate root database).kind = database.kind := by
  rw [locate]
  split
  · rfl
  · rfl

theorem locate_schema (root : Path) (database : DatabaseSettings) :
    (locate root database).schema = database.schema := by
  rw [locate]
  split
  · rfl
  · rfl

/-- Only files are seen from elsewhere, so the address of a server stays what it was checked to
be. -/
theorem sound_locate (root : Path) {database : DatabaseSettings} (h : database.Sound) :
    (locate root database).Sound := by
  rw [locate]
  split
  · rename_i hkind
    exact ⟨h.schema, fun hserver => absurd (hkind.symm.trans hserver) (by decide)⟩
  · exact h

theorem follows_adapt (settings : Settings) (options : GlobalOptions) {resolved : Resolved}
    (h : resolved.Sound) :
    Follows ⟨⟨options.projectDirectory⟩, settings,
      adapt ⟨options.projectDirectory⟩ options resolved⟩ options resolved where
  sound := ⟨sound_locate _ h.database, h.attempts⟩
  kind := locate_kind _ _
  schema := locate_schema _ _
  server hkind := by
    show (locate _ _).path = _
    rw [locate, hkind]
  file hkind := by
    show (locate _ _).path = _
    rw [locate, hkind]
  root := rfl
  environment := rfl
  lock := rfl

theorem loaded_of_loadSettings (h : loadSettings tree options = .ok settings) :
    settings.Loaded := by
  have hduring : ∀ {step : Step} {result : Except InputError Settings},
      Failure.during step result = .ok settings → result = .ok settings := by
    intro step result hresult
    cases result with
    | ok read => cases hresult; rfl
    | error e => cases hresult
  rw [loadSettings] at h
  split at h
  · exact Settings.loaded_of_load (hduring h)
  · exact Settings.loaded_of_loadFrom (hduring h)

theorem load_of_resolve {problem : InputError}
    (hsettings : loadSettings tree options = .ok settings)
    (h : settings.resolve (Settings.chosenTarget options.target ambient) = .error problem) :
    load tree options ambient = .error ⟨.resolvingTarget, .input problem⟩ := by
  rw [load, hsettings]
  simp only [h, Failure.during]

theorem load_of_resolved {resolved : Resolved}
    (hsettings : loadSettings tree options = .ok settings)
    (h : settings.resolve (Settings.chosenTarget options.target ambient) = .ok resolved) :
    load tree options ambient = .ok ⟨⟨options.projectDirectory⟩, settings,
      adapt ⟨options.projectDirectory⟩ options resolved⟩ := by
  rw [load, hsettings]
  simp only [h, Failure.during]

end Project

open Project (loadSettings)

/-- What loads is resolved for every choice except an unknown target, to settings that are sound
whether they come from the base or from the target. A project has these settings, with the options'
environment and with a file's path seen from the working directory, and is sound as well. -/
theorem resolution_outcome (tree : Tree) :
    (∀ path settings, Settings.load tree path = .ok settings → ∀ choice,
      ((∃ problem, settings.resolve choice = .error problem) ↔ settings.IsUnknown choice) ∧
        ∀ resolved, settings.resolve choice = .ok resolved → settings.ResolvesTo choice resolved) ∧
      ∀ options settings, loadSettings tree options = .ok settings → ∀ ambient,
        ((∃ failure, Project.load tree options ambient = .error failure) ↔
          settings.IsUnknown (Settings.chosenTarget options.target ambient)) ∧
          ∀ project, Project.load tree options ambient = .ok project →
            ∃ resolved,
              settings.ResolvesTo (Settings.chosenTarget options.target ambient) resolved ∧
                project.Follows options resolved := by
  constructor
  · intro path settings h choice
    obtain ⟨hunknown, problem, hproblem⟩ | ⟨hknown, resolved, hresolved, hsound⟩ :=
      (Settings.loaded_of_load h).resolve_cases choice
    · simp [hunknown, hproblem]
    · simp [hknown, hresolved, hsound]
  · intro options settings h ambient
    obtain ⟨hunknown, problem, hproblem⟩ | ⟨hknown, resolved, hresolved, hsound⟩ :=
      (Project.loaded_of_loadSettings h).resolve_cases
        (Settings.chosenTarget options.target ambient)
    · simp [hunknown, Project.load_of_resolve h hproblem]
    · have hload := Project.load_of_resolved h hresolved
      refine ⟨by simp [hknown, hload], fun project hproject => ⟨resolved, hsound, ?_⟩⟩
      rw [hload] at hproject
      cases hproject
      exact Project.follows_adapt settings options hsound.sound

/-- A project with a file as its database, and a server in production. -/
def shopText : String :=
  "name: shop\ndatabase:\n  path: shop.duckdb\nenvironment: dev\ntargets:\n  prod:\n" ++
    "    database:\n      type: postgres\n      path: postgres://db/shop\n"

def shopTree : Tree := ⟨[(["work"], .directory), (["work", "ordo.yml"], .file (.text shopText))]⟩

def shopSettings : Settings where
  name := "shop"
  environment := some "dev"
  database := { path := "shop.duckdb" }
  targets := [("prod", { database := some { kind := .postgres, path := "postgres://db/shop" } })]

theorem load_shop : Settings.load shopTree ⟨"work/ordo.yml"⟩ = .ok shopSettings := by decide +kernel

theorem loadSettings_shop (target environment : Option String) :
    loadSettings shopTree { projectDirectory := "work", target, environment } =
      .ok shopSettings := by
  have hpath : Path.join ⟨"work"⟩ Settings.fileNames.1 = ⟨"work/ordo.yml"⟩ := by decide
  have hexists : shopTree.exists? ⟨"work/ordo.yml"⟩ = true := by decide +kernel
  simp only [loadSettings, Settings.loadFrom, hpath, hexists, if_true, load_shop, Failure.during]

/-- A target that does not exist fails. Production is a server whose address stays, and it has the
base's environment unless the options name another; without a target the base's file is found below
the project's directory. -/
theorem resolution_outcome_shop :
    let options (target environment : Option String) : GlobalOptions :=
      { projectDirectory := "work", target, environment }
    Settings.load shopTree ⟨"work/ordo.yml"⟩ = .ok shopSettings ∧
      (∃ problem, shopSettings.resolve (some "qa") = .error problem) ∧
      (∀ target environment, loadSettings shopTree (options target environment) =
        .ok shopSettings) ∧
      (∃ project, Project.load shopTree (options (some "prod") (some "canary")) none =
        .ok project ∧ project.resolved.Sound ∧
          project.resolved.database.path = "postgres://db/shop" ∧
          project.resolved.environment = some "canary") ∧
      ∃ project, Project.load shopTree (options none none) none = .ok project ∧
        project.resolved.Sound ∧ project.resolved.database.path = "work/shop.duckdb" ∧
        project.resolved.environment = some "dev" := by
  intro options
  have hloads : ∀ {target environment : Option String}, ¬ shopSettings.IsUnknown target →
      ∃ project, Project.load shopTree (options target environment) none = .ok project := by
    intro target environment hknown
    have hsettings := loadSettings_shop target environment
    have hfails := ((resolution_outcome shopTree).2 _ _ hsettings none).1
    rw [Settings.chosenTarget, Option.or_none] at hfails
    cases hload : Project.load shopTree (options target environment) none with
    | error failure => exact absurd (hfails.mp ⟨failure, hload⟩) hknown
    | ok project => exact ⟨project, rfl⟩
  have hprod : ¬ shopSettings.IsUnknown (some "prod") := by
    rintro ⟨name, hname, hmissing⟩
    cases hname
    exact hmissing (by decide)
  have hnone : ¬ shopSettings.IsUnknown none := nofun
  refine ⟨load_shop, ?_, loadSettings_shop, ?_, ?_⟩
  · exact ((resolution_outcome shopTree).1 _ _ load_shop (some "qa")).1.mpr
      ⟨"qa", rfl, by decide⟩
  · obtain ⟨project, hproject⟩ := @hloads (some "prod") (some "canary") hprod
    obtain ⟨resolved, hresolved, hfollows⟩ :=
      ((resolution_outcome shopTree).2 _ _ (loadSettings_shop _ _) none).2 project hproject
    obtain ⟨hdatabase, henvironment⟩ := hresolved.target "prod" _ rfl (List.mem_singleton_self _)
    refine ⟨project, hproject, hfollows.sound, ?_, ?_⟩
    · rw [hfollows.server (by rw [hdatabase]; rfl), hdatabase]
      rfl
    · rw [hfollows.environment]
      rfl
  · obtain ⟨project, hproject⟩ := @hloads none none hnone
    obtain ⟨resolved, hresolved, hfollows⟩ :=
      ((resolution_outcome shopTree).2 _ _ (loadSettings_shop _ _) none).2 project hproject
    obtain ⟨hdatabase, henvironment⟩ := hresolved.base rfl
    refine ⟨project, hproject, hfollows.sound, ?_, ?_⟩
    · rw [hfollows.file (by rw [hdatabase]; rfl), hfollows.root, hdatabase]
      decide
    · rw [hfollows.environment, henvironment]
      rfl

end CommandLine
end SchemaMigration
