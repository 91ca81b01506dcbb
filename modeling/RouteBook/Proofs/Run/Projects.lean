import RouteBook.Proofs.Document.Books
import RouteBook.Proofs.Steps
import RouteBook.Run
/-! # The projects of a run

A run without modules has the project of its configuration.  With modules it has one for each
directory that bears the name of a module, under the identifier of that module.  Each of them
comes from `generate`, so its books stand under their names and its identifier is that of the
configuration it was made with (`mem_generateAll`).
-/
namespace RouteBook
namespace Run

variable {files : Files} {path : String} {config : Config} {asked : Option Framework}

/-! ### One project -/

/-- What is made of the sources of a project once they are read. -/
def projectFrom (files : Files) (config : Config) (asked : Option Framework)
    (sources : List (List Source.Item)) : Except Failure Project := do
  let configured ← config.framework?.mapError .ofCause
  let framework ← frameworkOf (asked <|> configured) sources
  let filter ← (config.pathFilter files).mapError .ofCause
  return (Extract.project framework config sources).value.renderable filter

/-- A test that only decides on a warning does not count for the value. -/
theorem value_run_warn {α : Type} (doubt : Prop) [Decidable doubt] (w : Warning)
    (rest : Attempt α) :
    (if doubt then do Attempt.warn w; rest else rest).run.value = rest.run.value := by
  by_cases h : doubt
  · rw [if_pos h]
    rfl
  · rw [if_neg h]

/-- **What a project is made of**: the sources that are found and can be read. -/
theorem value_generate (files : Files) (path : String) (config : Config)
    (asked : Option Framework) :
    (generate files path config asked).run.value = (do
      let paths ← files.sources path
      if paths.isEmpty then throw (.ofCause .noSources)
      let sources := (readSources files paths).value
      if sources.isEmpty then throw (.ofCause .noParsedSources)
      projectFrom files config asked sources) := by
  unfold generate
  rw [value_run_bind]
  refine congrArg (_ >>= ·) (funext fun paths => ?_)
  dsimp only
  cases paths.isEmpty with
  | true => rfl
  | false =>
    show (ExceptT.lift (readSources files paths) >>= _ : Attempt Project).run.value = _
    rw [value_run_bind]
    -- under `run`, the test is still that of the attempt
    show (if (readSources files paths).value.isEmpty then _ else _ : Attempt Project).run.value =
      (if (readSources files paths).value.isEmpty then _ else _)
    cases (readSources files paths).value.isEmpty with
    | true => rfl
    | false =>
      -- how many files could not be read is only a warning
      refine (value_run_warn _ _ _).trans ?_
      rw [value_run_bind]
      refine congrArg (_ >>= ·) (funext fun configured => ?_)
      rw [value_run_bind]
      refine congrArg (_ >>= ·) (funext fun framework => ?_)
      rw [value_run_bind]
      show (Attempt.ofCause (config.pathFilter files) >>= _ : Attempt Project).run.value = _
      rw [value_run_bind]
      rfl

theorem exists_of_generate {p : Project}
    (h : (generate files path config asked).run.value = .ok p) :
    ∃ framework sources filter,
      p = (Extract.project framework config sources).value.renderable filter := by
  rw [value_generate] at h
  obtain ⟨paths, -, h⟩ := bind_eq_ok h
  dsimp only at h
  split at h
  · cases h
  · split at h
    · cases h
    · obtain ⟨configured, -, h⟩ := bind_eq_ok h
      obtain ⟨framework, -, h⟩ := bind_eq_ok h
      obtain ⟨filter, -, h⟩ := bind_eq_ok h
      cases h
      exact ⟨framework, _, filter, rfl⟩

/-- **A project has the identifier of its configuration**, and its books stand under their names. -/
theorem isFiled_of_generate {p : Project}
    (h : (generate files path config asked).run.value = .ok p) :
    p.id = config.id ∧ p.IsFiled := by
  obtain ⟨framework, sources, filter, rfl⟩ := exists_of_generate h
  exact ⟨Extract.id_project framework config sources,
    (Extract.isFiled_project framework config sources).renderable filter⟩

/-! ### All projects -/

/-- Every project of some module directories is that of a module of the configuration. -/
theorem mem_generateModules {dirs : List String} {p : Project}
    (h : p ∈ (generateModules files config asked dirs).value) :
    ∃ dir ∈ dirs, ∃ m ∈ config.modules, Text.trimmed m.directory = Path.fileName dir ∧
      (generate files dir (config.forModule m) asked).run.value = .ok p := by
  induction dirs with
  | nil => exact absurd h List.not_mem_nil
  | cons dir dirs ih =>
    have later (h : p ∈ (generateModules files config asked dirs).value) :
        ∃ dir' ∈ dir :: dirs, ∃ m ∈ config.modules, Text.trimmed m.directory = Path.fileName dir' ∧
          (generate files dir' (config.forModule m) asked).run.value = .ok p := by
      obtain ⟨dir', hdir', rest⟩ := ih h
      exact ⟨dir', List.mem_cons_of_mem dir hdir', rest⟩
    unfold generateModules at h
    dsimp only at h
    split at h
    · exact later h
    · rename_i m found
      rw [Logged.value_bind] at h
      split at h
      · rename_i project made
        obtain rfl | h := List.mem_cons.mp h
        · have named := List.find?_some found
          exact ⟨dir, List.mem_cons_self, m, List.mem_of_find?_eq_some found,
            beq_iff_eq.mp named, made⟩
        · exact later h
      · exact later h

theorem value_generateAll_of_modules (ne : config.modules ≠ []) :
    (generateAll files path config asked).run.value = do
      let names := config.modules.map fun m => Text.trimmed m.directory
      let dirs ← files.directories path names config.maxDepth
      let projects := (generateModules files config asked dirs).value
      if projects.isEmpty then throw (.ofCause .noModules)
      return projects := by
  have some_module : config.modules.isEmpty = false := by
    rw [← Bool.not_eq_true, List.isEmpty_iff]
    exact ne
  unfold generateAll
  rw [some_module]
  dsimp only
  show (Attempt.ofExcept (files.directories path _ config.maxDepth) >>= _ :
    Attempt (List Project)).run.value = _
  rw [value_run_bind]
  refine congrArg (_ >>= ·) (funext fun dirs => ?_)
  rw [value_run_bind]
  show (ExceptT.lift (generateModules files config asked dirs) >>= _ :
    Attempt (List Project)).run.value = _
  rw [value_run_bind]
  show (if (generateModules files config asked dirs).value.isEmpty then _ else _ :
      Attempt (List Project)).run.value =
    (if (generateModules files config asked dirs).value.isEmpty then _ else _)
  cases (generateModules files config asked dirs).value.isEmpty with
  | true => rfl
  | false => rfl

theorem value_generateAll_of_modules_eq_nil (none_given : config.modules = []) :
    (generateAll files path config asked).run.value =
      (generate files path config asked).run.value.map fun p => [p] := by
  unfold generateAll
  rw [none_given]
  show (generate files path config asked >>= _ : Attempt (List Project)).run.value = _
  rw [value_run_bind]
  cases (generate files path config asked).run.value with
  | error failure => rfl
  | ok p => rfl

/-- **The projects of a run**: the one that is configured, or those of module directories. -/
theorem generateAll_cases {projects : List Project}
    (h : (generateAll files path config asked).run.value = .ok projects) :
    (config.modules = [] ∧ ∃ p, projects = [p] ∧
      (generate files path config asked).run.value = .ok p) ∨
    (config.modules ≠ [] ∧ ∀ p ∈ projects, ∃ dir, ∃ m ∈ config.modules,
      Text.trimmed m.directory = Path.fileName dir ∧
        (generate files dir (config.forModule m) asked).run.value = .ok p) := by
  by_cases none_given : config.modules = []
  · rw [value_generateAll_of_modules_eq_nil none_given] at h
    cases made : (generate files path config asked).run.value with
    | error failure =>
      rw [made] at h
      cases h
    | ok p =>
      rw [made] at h
      cases h
      exact .inl ⟨none_given, p, rfl, rfl⟩
  · rw [value_generateAll_of_modules none_given] at h
    obtain ⟨dirs, -, h⟩ := bind_eq_ok h
    dsimp only at h
    split at h
    · cases h
    · cases h
      refine .inr ⟨none_given, fun p hp => ?_⟩
      obtain ⟨dir, -, rest⟩ := mem_generateModules hp
      exact ⟨dir, rest⟩

/-- **Whose identifier a project bears**: that of the configuration, or of one of its modules. -/
theorem mem_generateAll {projects : List Project}
    (h : (generateAll files path config asked).run.value = .ok projects) {p : Project}
    (hp : p ∈ projects) :
    p.IsFiled ∧ (config.modules = [] ∧ p.id = config.id ∨
      ∃ m ∈ config.modules, p.id = m.directory) := by
  obtain ⟨none_given, p', rfl, made⟩ | ⟨-, each⟩ := generateAll_cases h
  · obtain rfl := List.mem_singleton.mp hp
    obtain ⟨id, filed⟩ := isFiled_of_generate made
    exact ⟨filed, .inl ⟨none_given, id⟩⟩
  · obtain ⟨dir, m, hm, -, made⟩ := each p hp
    obtain ⟨id, filed⟩ := isFiled_of_generate made
    exact ⟨filed, .inr ⟨m, hm, id⟩⟩

/-- A source file with a controller of one handler, from which a project can be made. -/
def controllerFile (name : String) : FileTree := .file (some
  ("#[rest_controller] impl " ++ name ++ " \x7b #[get_mapping] fn all(&self) \x7b\x7d \x7d"))

end Run
end RouteBook
