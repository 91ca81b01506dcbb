import RouteBook.Proofs.Config.Checks
import RouteBook.Proofs.Run.Projects
/-! # Arguments and the configuration file

What is given on the command line takes the place of what the configuration file says, and
everything that follows reads the value that has won.  The framework is the exception: the one
that is given is not put into the configuration but asked for later, while the name in the
configuration is still validated.  So two configurations that differ only in what is given have
the same verdict iff the validation fails before it comes to the framework, or both name none that
is unknown, or the same (`settle_agrees_iff`).  If both pass, then the runs are the same.
-/
namespace RouteBook

namespace Config

/-- A configuration whose framework is none or one that is known. -/
def KnowsFramework (c : Config) : Prop := ∃ known, c.framework? = .ok known

/-- The configuration with another framework. -/
def withFramework (c : Config) (framework : Option String) : Config :=
  { c with framework := framework }

theorem modules_withFramework (c : Config) (framework : Option String) :
    (c.withFramework framework).modules = c.modules := rfl

theorem maxDepth_withFramework (c : Config) (framework : Option String) :
    (c.withFramework framework).maxDepth = c.maxDepth := rfl

theorem framework?_eq_error {c : Config} {cause : Cause} (h : c.framework? = .error cause) :
    ∃ name, c.framework = some name ∧ cause = .unknownFramework name := by
  unfold framework? at h
  split at h
  · cases h
  · rename_i name found
    split at h
    · cases h
    · split at h
      · cases h
      · cases h
        exact ⟨name, found, rfl⟩

/-- **The framework is looked at last** of all that needs no files. -/
theorem validate_eq (files : Files) (c : Config) :
    c.validate files = ((c.withFramework none).check >>= fun _ => c.framework? >>= fun _ =>
      c.pathFilter files >>= fun _ => pure ()) := by
  unfold validate check
  simp only [bind_assoc]
  rfl

/-- No other check, and no pattern, fails with an unknown framework. -/
theorem pathFilter_ne_unknownFramework {files : Files} {c : Config} {name : String} :
    c.pathFilter files ≠ .error (.unknownFramework name) := by
  have patterns (given : List String) (file : Option String) :
      withPatternsIn files given file ≠ .error (.unknownFramework name) := by
    unfold withPatternsIn
    split
    · exact nofun
    · split
      · exact nofun
      · split
        · exact nofun
        · exact nofun
  intro h
  unfold pathFilter at h
  obtain h | ⟨only, -, h⟩ := bind_eq_error_iff.mp h
  · exact patterns _ _ h
  · obtain h | ⟨exclude, -, h⟩ := bind_eq_error_iff.mp h
    · exact patterns _ _ h
    · cases made : PathFilter.ofPatterns only exclude with
      | error invalid =>
        rw [made] at h
        cases h
      | ok filter =>
        rw [made] at h
        cases h

/-- **When another framework makes no difference to the validation**: if it fails before, or if both
are known, or if there is no other framework at all. -/
theorem validate_withFramework_eq_iff {files : Files} {c : Config} {name : Option String} :
    (c.withFramework name).validate files = c.validate files ↔
      (∃ cause, (c.withFramework none).check = .error cause) ∨ name = c.framework ∨
        (c.withFramework name).KnowsFramework ∧ c.KnowsFramework := by
  rw [validate_eq, validate_eq]
  show ((c.withFramework none).check >>= fun _ => (c.withFramework name).framework? >>= fun _ =>
    c.pathFilter files >>= fun _ => pure ()) = _ ↔ _
  -- both validations begin with the same checks, and end with the same patterns
  cases (c.withFramework none).check with
  | error cause => exact ⟨fun _ => .inl ⟨cause, rfl⟩, fun _ => rfl⟩
  | ok _ =>
    have passes : ¬ ∃ cause, (.ok () : Except Cause Unit) = .error cause := by
      rintro ⟨cause, h⟩
      cases h
    have filtered {name : String} : (c.pathFilter files >>= fun _ => pure ()) ≠
        (.error (.unknownFramework name) : Except Cause Unit) := by
      intro h
      obtain h | ⟨filter, -, h⟩ := bind_eq_error_iff.mp h
      · exact pathFilter_ne_unknownFramework h
      · cases h
    rw [or_iff_right passes]
    -- an unknown framework fails with its name, and with what nothing behind it fails with
    cases other : (c.withFramework name).framework? with
    | error cause =>
      obtain ⟨unknown, hname, rfl⟩ := framework?_eq_error other
      have not_known : ¬ (c.withFramework name).KnowsFramework := by
        rintro ⟨known, h⟩
        rw [h] at other
        cases other
      rw [or_iff_left fun both => not_known both.1]
      cases own : c.framework? with
      | error cause =>
        obtain ⟨unknown', hown, rfl⟩ := framework?_eq_error own
        show Except.error _ = Except.error _ ↔ _
        rw [Except.error.injEq, Cause.unknownFramework.injEq, hown, ← Option.some.injEq]
        exact ⟨hname.trans, hname.symm.trans⟩
      | ok known =>
        refine ⟨fun h => absurd h.symm filtered, fun same => ?_⟩
        rw [same] at other
        cases own.symm.trans other
    | ok known =>
      cases own : c.framework? with
      | error cause =>
        obtain ⟨unknown, -, rfl⟩ := framework?_eq_error own
        refine ⟨fun h => absurd h filtered, ?_⟩
        rintro (same | ⟨-, known', h⟩)
        · rw [same] at other
          cases own.symm.trans other
        · cases own.symm.trans h
      | ok known' =>
        exact ⟨fun _ => .inr ⟨⟨known, other⟩, ⟨known', own⟩⟩, fun _ => rfl⟩

end Config

namespace Arguments

variable {files : Files} {a : Arguments} {c₁ c₂ : Config}

/-- What becomes of a configuration once it is loaded. -/
def settle (files : Files) (a : Arguments) (c : Config) : Except Failure Config := do
  let config := a.override c
  (config.validate files).mapError fun cause =>
    (Failure.ofCause cause).during "Invalid configuration"
  return config

theorem loadConfig_eq (files : Files) (a : Arguments) :
    a.loadConfig files = a.loadConfigFile files >>= a.settle files := rfl

/-- Two configurations that differ at most in what some arguments replace. -/
structure AgreeApart (a : Arguments) (c₁ c₂ : Config) : Prop where
  id : a.id = none → c₁.id = c₂.id
  name : a.name = none → c₁.name = c₂.name
  description : c₁.description = c₂.description
  version : a.version = none → c₁.version = c₂.version
  framework : a.framework = none → c₁.framework = c₂.framework
  urlPrefix : a.urlPrefix = none → c₁.urlPrefix = c₂.urlPrefix
  only : a.only = [] →
    c₁.onlyPatterns = c₂.onlyPatterns ∧ c₁.onlyPatternsFile = c₂.onlyPatternsFile
  exclude : a.exclude = [] →
    c₁.excludePatterns = c₂.excludePatterns ∧ c₁.excludePatternsFile = c₂.excludePatternsFile
  buildPath : a.outputPath = none → c₁.buildPath = c₂.buildPath
  formats : a.formats = [] → c₁.formats = c₂.formats
  modules : c₁.modules = c₂.modules
  maxDepth : c₁.maxDepth = c₂.maxDepth
  mergesDocuments : c₁.mergesDocuments = c₂.mergesDocuments
  mergedName : c₁.mergedName = c₂.mergedName

theorem getD_congr {α : Type} {given : Option α} {x y : α} (h : given = none → x = y) :
    given.getD x = given.getD y := by
  cases given with
  | none => exact h rfl
  | some value => rfl

theorem orElse_congr {α : Type} {given x y : Option α} (h : given = none → x = y) :
    (given <|> x) = (given <|> y) := by
  cases given with
  | none => exact h rfl
  | some value => rfl

theorem ite_isEmpty_congr {α β : Type} {given : List α} {x y z : β} (h : given = [] → x = y) :
    (if given.isEmpty then x else z) = if given.isEmpty then y else z := by
  cases given with
  | nil => exact h rfl
  | cons value values => rfl

/-- **What is given wins**: apart from the framework, nothing is left of what the two differ in. -/
theorem AgreeApart.override (h : a.AgreeApart c₁ c₂) :
    a.override c₂ = (a.override c₁).withFramework c₂.framework := by
  unfold Arguments.override Config.withFramework
  dsimp only
  rw [getD_congr h.id, orElse_congr h.name, h.description, orElse_congr h.version,
    getD_congr h.urlPrefix, ite_isEmpty_congr fun e => (h.only e).1,
    ite_isEmpty_congr fun e => (h.only e).2, ite_isEmpty_congr fun e => (h.exclude e).1,
    ite_isEmpty_congr fun e => (h.exclude e).2, orElse_congr h.buildPath,
    ite_isEmpty_congr h.formats, h.modules, h.maxDepth, h.mergesDocuments, h.mergedName]

/-- Whether the configuration is accepted, and otherwise why not. -/
def verdict (files : Files) (a : Arguments) (c : Config) : Except Failure Unit :=
  (a.settle files c).map fun _ => ()

/-- The verdict is that of the validation. -/
theorem verdict_eq_iff :
    a.verdict files c₁ = a.verdict files c₂ ↔
      (a.override c₁).validate files = (a.override c₂).validate files := by
  have of_validation (c : Config) : a.verdict files c =
      ((a.override c).validate files).mapError fun cause =>
        (Failure.ofCause cause).during "Invalid configuration" := by
    unfold verdict settle
    dsimp only
    cases (a.override c).validate files with
    | error cause => rfl
    | ok _ => rfl
  rw [of_validation, of_validation]
  refine mapError_inj fun cause cause' same => ?_
  exact congrArg Failure.cause same

/-- What is accepted is the configuration in which what is given has won. -/
theorem settle_eq_ok_iff {c config : Config} :
    a.settle files c = .ok config ↔
      (a.override c).validate files = .ok () ∧ a.override c = config := by
  unfold settle
  dsimp only
  cases (a.override c).validate files with
  | error cause => exact ⟨nofun, nofun⟩
  | ok _ =>
    show Except.ok _ = Except.ok _ ↔ _
    rw [Except.ok.injEq, and_iff_right rfl]

end Arguments

namespace Run

variable {files : Files} {path : String} {config : Config} {name : Option String}

/-! ### Runs that are told the framework -/

/-- **A project does not depend on the framework of its configuration** if another one is given. -/
theorem generate_withFramework (known : config.KnowsFramework)
    (known' : (config.withFramework name).KnowsFramework) (asked : Framework) :
    generate files path (config.withFramework name) (some asked) =
      generate files path config (some asked) := by
  obtain ⟨configured, hconfigured⟩ := known
  obtain ⟨configured', hconfigured'⟩ := known'
  unfold generate
  rw [hconfigured, hconfigured']
  rfl

theorem generateModules_withFramework (known : config.KnowsFramework)
    (known' : (config.withFramework name).KnowsFramework) (asked : Framework)
    (dirs : List String) :
    generateModules files (config.withFramework name) (some asked) dirs =
      generateModules files config (some asked) dirs := by
  induction dirs with
  | nil => rfl
  | cons dir dirs ih =>
    have each (m : SourceModule) :
        generate files dir ((config.withFramework name).forModule m) (some asked) =
          generate files dir (config.forModule m) (some asked) := by
      have known : (config.forModule m).KnowsFramework := known
      have known' : ((config.forModule m).withFramework name).KnowsFramework := known'
      exact generate_withFramework known known' asked
    unfold generateModules
    simp only [each, ih]
    rfl

theorem warnOfMissing_withFramework (config : Config) (name : Option String)
    (found names : List String) :
    warnOfMissing (config.withFramework name) found names = warnOfMissing config found names := by
  induction names with
  | nil => rfl
  | cons missing names ih =>
    unfold warnOfMissing
    rw [ih, Config.maxDepth_withFramework]

theorem generateAll_withFramework (known : config.KnowsFramework)
    (known' : (config.withFramework name).KnowsFramework) (asked : Framework) :
    generateAll files path (config.withFramework name) (some asked) =
      generateAll files path config (some asked) := by
  unfold generateAll
  simp only [generate_withFramework known known', generateModules_withFramework known known',
    warnOfMissing_withFramework, Config.modules_withFramework, Config.maxDepth_withFramework]

/-- What a run does once it is configured. -/
def proceed (files : Files) (a : Arguments) (config : Config) : Attempt Outcome := do
  let projects ← generateAll files a.projectPath config a.framework
  if projects.all fun p => p.endpoints.isEmpty then Attempt.warn .nothingToDocument
  Attempt.ofExcept (deliver files config (renderAll projects config))

theorem run_eq (files : Files) (a : Arguments) :
    run files a = (Attempt.ofCause (a.check files) >>= fun _ =>
      Attempt.ofExcept (a.loadConfig files) >>= proceed files a) := rfl

/-- A run that is told the framework goes on in the same way with both configurations. -/
theorem proceed_withFramework {a : Arguments} {asked : Framework} (given : a.framework = some asked)
    (known : config.KnowsFramework) (known' : (config.withFramework name).KnowsFramework) :
    proceed files a (config.withFramework name) = proceed files a config := by
  unfold proceed
  rw [given, generateAll_withFramework known known']
  rfl

end Run

namespace Arguments

variable {files : Files} {a : Arguments} {c₁ c₂ : Config}

/-- **When arguments override the configuration file.**  Two configurations that differ at most in
what some arguments replace get the same verdict iff the validation fails before it comes to the
framework, or they name the same framework, or none that is unknown; and if both are accepted,
then the run goes on in the same way, with the same documents and the same warnings. -/
theorem settle_agrees_iff (agree : a.AgreeApart c₁ c₂) :
    (a.verdict files c₁ = a.verdict files c₂ ↔
      (∃ cause, ((a.override c₁).withFramework none).check = .error cause) ∨
        c₁.framework = c₂.framework ∨ c₁.KnowsFramework ∧ c₂.KnowsFramework) ∧
    ∀ config₁ config₂, a.settle files c₁ = .ok config₁ → a.settle files c₂ = .ok config₂ →
      Run.proceed files a config₁ = Run.proceed files a config₂ := by
  have wins := agree.override
  constructor
  · rw [verdict_eq_iff, wins, eq_comm (a := (a.override c₁).validate files),
      Config.validate_withFramework_eq_iff]
    refine or_congr_right (or_congr eq_comm and_comm)
  · intro config₁ config₂ first second
    obtain ⟨valid₁, rfl⟩ := settle_eq_ok_iff.mp first
    obtain ⟨valid₂, rfl⟩ := settle_eq_ok_iff.mp second
    have known₁ := (Config.validate_eq_ok_iff.mp valid₁).1.framework
    have known₂ := (Config.validate_eq_ok_iff.mp valid₂).1.framework
    rw [wins] at known₂ ⊢
    cases given : a.framework with
    | none =>
      -- then the framework is the same, too
      rw [← agree.framework given]
      rfl
    | some asked => exact (Run.proceed_withFramework given known₁ known₂).symm

/-- The arguments of a run in the current directory that is told its framework and an identifier. -/
def toldSpring : Arguments where
  projectPath := "."
  configPath := none
  formats := []
  outputPath := none
  framework := some .spring
  only := []
  exclude := []
  urlPrefix := none
  id := some "shop"
  name := none
  version := none
  isVerbose := false

example : parse [".", "-w", "spring", "--id", "shop"] = .ok toldSpring := by decide +kernel

/-- Two configurations that differ only in what these arguments replace. -/
theorem agreeApart_toldSpring (id id' : String) (framework framework' : Option String) :
    toldSpring.AgreeApart { id := id, framework := framework }
      { id := id', framework := framework' } where
  id := nofun
  name _ := rfl
  description := rfl
  version _ := rfl
  framework := nofun
  urlPrefix _ := rfl
  only _ := ⟨rfl, rfl⟩
  exclude _ := ⟨rfl, rfl⟩
  buildPath _ := rfl
  formats _ := rfl
  modules := rfl
  maxDepth := rfl
  mergesDocuments := rfl
  mergedName := rfl

/-- An identifier that is blank does not count if another one is given. -/
theorem blank_id_overridden :
    ∃ config₁ config₂ : Config,
      toldSpring.settle ⟨.empty, []⟩ { id := " ", framework := some "springmvc" } = .ok config₁ ∧
      toldSpring.settle ⟨.empty, []⟩ { id := "api" } = .ok config₂ ∧
      toldSpring.verdict ⟨.empty, []⟩ { id := " ", framework := some "springmvc" } =
        toldSpring.verdict ⟨.empty, []⟩ { id := "api" } ∧
      Run.proceed ⟨.empty, []⟩ toldSpring config₁ =
        Run.proceed ⟨.empty, []⟩ toldSpring config₂ := by
  obtain ⟨verdicts, same⟩ := settle_agrees_iff
    (agreeApart_toldSpring " " "api" (some "springmvc") none)
  refine ⟨_, _, rfl, rfl, verdicts.mpr (.inr (.inr ⟨⟨_, rfl⟩, ⟨_, rfl⟩⟩)), same _ _ rfl rfl⟩

/-- A framework that is unknown counts although another one is given. -/
theorem unknown_framework_rejected :
    ∃ c₁ c₂ : Config, toldSpring.AgreeApart c₁ c₂ ∧
      toldSpring.verdict ⟨.empty, []⟩ c₁ = .error
        ⟨["Invalid configuration"], .unknownFramework "rocket"⟩ ∧
      toldSpring.verdict ⟨.empty, []⟩ c₂ = .ok () :=
  ⟨{ framework := some "rocket" }, { framework := some "spring" },
    agreeApart_toldSpring "api" "api" (some "rocket") (some "spring"), rfl, rfl⟩

end Arguments
end RouteBook
