import RouteBook.Config.Load
import RouteBook.Proofs.Steps
/-! # Configurations that pass

A configuration is validated step by step, and the first step that fails tells why.  It passes iff
it satisfies all of them, so what it satisfies then is said once (`IsChecked`).
-/
namespace RouteBook
namespace Config

/-- What the checks of a module ask for: the name of a single directory, and a route prefix that
begins with a slash if there is one. -/
structure IsCheckedModule (m : SourceModule) : Prop where
  ne_empty : (Text.trimmed m.directory).isEmpty = false
  slash : Text.hasChar (Text.trimmed m.directory) '/' = false
  backslash : Text.hasChar (Text.trimmed m.directory) '\\' = false
  routePrefix : ∀ given, m.urlPrefix = some given → checkPrefix given = .ok ()

/-- What the checks of a configuration ask for. -/
structure IsChecked (c : Config) : Prop where
  id : Text.blank c.id = false
  formats : c.formats ≠ []
  routePrefix : checkPrefix c.urlPrefix = .ok ()
  depth : c.maxDepth ≠ 0
  modules : ∀ m ∈ c.modules, IsCheckedModule m
  merges : c.mergesDocuments = true → .asciidoc ∈ c.formats
  framework : ∃ known, c.framework? = .ok known

theorem require_eq_ok_iff {holds : Bool} {fault : ConfigFault} :
    require holds fault = .ok () ↔ holds = true := by
  unfold require
  cases holds with
  | true => exact ⟨fun _ => rfl, fun _ => rfl⟩
  | false => constructor <;> (intro h; cases h)

theorem checkModule_eq_ok_iff {m : SourceModule} :
    checkModule m = .ok () ↔ IsCheckedModule m := by
  unfold checkModule
  dsimp only
  rw [check_bind_eq_ok_iff, require_eq_ok_iff]
  simp only [Bool.and_eq_true, Bool.not_eq_true']
  constructor
  · rintro ⟨⟨⟨ne_empty, slash⟩, backslash⟩, given⟩
    refine ⟨ne_empty, slash, backslash, fun pre hpre => ?_⟩
    rw [hpre] at given
    exact given
  · rintro ⟨ne_empty, slash, backslash, given⟩
    refine ⟨⟨⟨ne_empty, slash⟩, backslash⟩, ?_⟩
    cases hpre : m.urlPrefix with
    | none => rfl
    | some pre => exact given pre hpre

/-- **Which configurations pass** the checks that do not look at files. -/
theorem check_eq_ok_iff {c : Config} : c.check = .ok () ↔ IsChecked c := by
  have known : (c.framework? >>= fun _ => pure ()) = .ok () ↔
      ∃ known, c.framework? = .ok known := by
    cases c.framework? with
    | error cause =>
      constructor
      · intro h
        cases h
      · rintro ⟨known, h⟩
        cases h
    | ok known => exact ⟨fun _ => ⟨known, rfl⟩, fun _ => rfl⟩
  have merging : (!c.mergesDocuments || c.formats.contains .asciidoc) = true ↔
      (c.mergesDocuments = true → .asciidoc ∈ c.formats) := by
    cases c.mergesDocuments with
    | false => simp
    | true => simp
  unfold check
  rw [check_bind_eq_ok_iff, check_bind_eq_ok_iff, check_bind_eq_ok_iff, check_bind_eq_ok_iff,
    check_bind_eq_ok_iff, check_bind_eq_ok_iff, forM_eq_ok_iff, known]
  simp only [require_eq_ok_iff, merging, checkModule_eq_ok_iff, Bool.not_eq_true',
    decide_eq_true_eq, List.isEmpty_eq_false_iff]
  constructor
  · rintro ⟨id, formats, given, depth, modules, merges, framework⟩
    exact ⟨id, formats, given, depth, modules, merges, framework⟩
  · rintro ⟨id, formats, given, depth, modules, merges, framework⟩
    exact ⟨id, formats, given, depth, modules, merges, framework⟩

/-- A configuration is valid iff it passes the checks and its patterns can be read. -/
theorem validate_eq_ok_iff {files : Files} {c : Config} :
    c.validate files = .ok () ↔ IsChecked c ∧ ∃ filter, c.pathFilter files = .ok filter := by
  unfold validate
  rw [check_bind_eq_ok_iff, check_eq_ok_iff]
  refine and_congr_right fun _ => ?_
  cases c.pathFilter files with
  | error cause =>
    constructor
    · intro h
      cases h
    · rintro ⟨filter, h⟩
      cases h
  | ok filter => exact ⟨fun _ => ⟨filter, rfl⟩, fun _ => rfl⟩

end Config
end RouteBook
