import RouteBook.Proofs.Config.Checks
import RouteBook.Proofs.Run.Projects
import RouteBook.Proofs.Text.Pieces
/-! # The configurations of modules

Every module is documented with a configuration of its own, which is never validated: it takes its
name from the directory, its route prefix from the module or from the whole configuration, and all
the rest from the latter.  That is sound, because whatever the validation asks of a configuration it
has asked of these two before (`Config.IsChecked.forModule`).

A run on a module may still fail, over its sources.  It does not fail over its configuration: the
framework is none or a known one, and the filter can be made (`Run.blamesConfig_of_generate`).
-/
namespace RouteBook

/-- Whether the cause of a failure is something that a configuration says. -/
def Cause.blamesConfig : Cause → Bool
  | .unreadable _ => true
  | .config _ => true
  | .pattern _ => true
  | .unknownFramework _ => true
  | .missingConfig _ => true
  | _ => false

namespace Config

variable {c : Config} {m : SourceModule}

/-- The name of a module that passes is not blank. -/
theorem IsCheckedModule.not_blank (h : IsCheckedModule m) : Text.blank m.directory = false := by
  rw [← Bool.not_eq_true, Text.blank, ← Text.trim_eq_nil_iff]
  intro nothing
  have empty := h.ne_empty
  rw [Text.trimmed, nothing] at empty
  cases empty

/-- The prefix of its routes is that of the module or that of the whole configuration, and both have
passed. -/
theorem IsChecked.routePrefix_forModule (h : IsChecked c) (hm : m ∈ c.modules) :
    checkPrefix (c.forModule m).urlPrefix = .ok () := by
  show checkPrefix (m.urlPrefix.getD c.urlPrefix) = .ok ()
  cases own : m.urlPrefix with
  | none => exact h.routePrefix
  | some given => exact (h.modules m hm).routePrefix given own

/-- **What a configuration has passed, the configurations of its modules pass.** -/
theorem IsChecked.forModule (h : IsChecked c) (hm : m ∈ c.modules) : IsChecked (c.forModule m) where
  id := (h.modules m hm).not_blank
  formats := h.formats
  routePrefix := h.routePrefix_forModule hm
  depth := h.depth
  modules _ none := absurd none List.not_mem_nil
  merges := nofun
  framework := h.framework

end Config

namespace Run

variable {files : Files} {config : Config}

/-- Directories are looked through without looking at a configuration. -/
theorem blamesConfig_of_sources {path : String} {failure : Failure}
    (h : files.sources path = .error failure) : failure.cause.blamesConfig = false := by
  unfold Files.sources Files.treeAt at h
  split at h
  · cases h
  · cases h
    rfl

/-- What is detected does not depend on a configuration. -/
theorem blamesConfig_of_frameworkOf {asked : Option Framework}
    {sources : List (List Source.Item)} {failure : Failure}
    (h : frameworkOf asked sources = .error failure) : failure.cause.blamesConfig = false := by
  unfold frameworkOf at h
  split at h
  · cases h
  · split at h
    · cases h
    · cases h
      rfl

/-- **With a framework and a filter that can be made, a project fails over its sources only.** -/
theorem blamesConfig_of_generate (framework : ∃ known, config.framework? = .ok known)
    (filter : ∃ filter, config.pathFilter files = .ok filter) {path : String}
    {asked : Option Framework} {failure : Failure}
    (h : (generate files path config asked).run.value = .error failure) :
    failure.cause.blamesConfig = false := by
  obtain ⟨known, hknown⟩ := framework
  obtain ⟨filter, hfilter⟩ := filter
  rw [value_generate] at h
  obtain h | ⟨paths, -, h⟩ := bind_eq_error_iff.mp h
  · exact blamesConfig_of_sources h
  · dsimp only at h
    split at h
    · cases h
      rfl
    · split at h
      · cases h
        rfl
      · -- the sources are read, and what is left to fail is the detection of the framework
        unfold projectFrom at h
        rw [hknown, hfilter] at h
        obtain h | ⟨configured, -, h⟩ := bind_eq_error_iff.mp h
        · cases h
        · obtain h | ⟨found, -, h⟩ := bind_eq_error_iff.mp h
          · exact blamesConfig_of_frameworkOf h
          · cases h

end Run

/-- **The configurations of modules inherit validity.**  If a configuration is valid, then so is that
of each of its modules, with the same pattern files.  It has no modules and joins no documents, and
its framework, its formats, its filter and its depth are those of the whole.  No run on the module
fails over its configuration. -/
theorem Config.forModule_inherits {files : Files} {c : Config} (valid : c.validate files = .ok ())
    {m : SourceModule} (hm : m ∈ c.modules) :
    (c.forModule m).validate files = .ok () ∧
    ((c.forModule m).modules = [] ∧ (c.forModule m).mergesDocuments = false) ∧
    ((c.forModule m).framework? = c.framework? ∧ (c.forModule m).formats = c.formats ∧
      (c.forModule m).pathFilter files = c.pathFilter files ∧
      (c.forModule m).maxDepth = c.maxDepth) ∧
    ∀ path asked failure,
      (Run.generate files path (c.forModule m) asked).run.value = .error failure →
        failure.cause.blamesConfig = false := by
  obtain ⟨checked, filter⟩ := validate_eq_ok_iff.mp valid
  have passes : IsChecked (c.forModule m) := checked.forModule hm
  refine ⟨validate_eq_ok_iff.mpr ⟨passes, filter⟩, ⟨rfl, rfl⟩, ⟨rfl, rfl, rfl, rfl⟩, ?_⟩
  intro path asked failure h
  exact Run.blamesConfig_of_generate passes.framework filter h

/-- A configuration with a module that has a prefix of its own, and one with blanks around its
name. -/
def Config.twoModules : Config where
  id := "shop"
  framework := some "SpringMVC"
  urlPrefix := "/api"
  onlyPatterns := ["/api/**"]
  formats := [.asciidoc, .json]
  modules := [⟨"users", some "/u"⟩, ⟨" orders", none⟩]
  mergesDocuments := true

/-- The module with the blanks is valid as well, under the prefix of the whole. -/
theorem Config.orders_inherits :
    twoModules.validate ⟨.empty, []⟩ = .ok () ∧
    (twoModules.forModule ⟨" orders", none⟩).validate ⟨.empty, []⟩ = .ok () ∧
    (twoModules.forModule ⟨" orders", none⟩).urlPrefix = "/api" ∧
    ∀ failure,
      (Run.generate ⟨.empty, []⟩ "." (twoModules.forModule ⟨" orders", none⟩) none).run.value =
        .error failure → failure.cause.blamesConfig = false := by
  have valid : twoModules.validate ⟨.empty, []⟩ = .ok () :=
    eq_ok_of_isOk (by decide +kernel) ()
  obtain ⟨again, -, -, runs⟩ := forModule_inherits (m := ⟨" orders", none⟩) valid (by decide)
  exact ⟨valid, again, rfl, runs "." none⟩

end RouteBook
