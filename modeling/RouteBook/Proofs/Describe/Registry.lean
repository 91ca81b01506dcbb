import RouteBook.Proofs.Describe.Run
/-! # The first available answer

Whatever a plugin does, it is a function of the descriptions that the chain gives it.  A plugin may
go back to the chain as often as it likes, for types and for names, it may look at the names that are
being expanded, and it may ask a question while further names are.  A `Session` is all that it can
use; what is warned of on the way is none of it.  So a `Registry` of such plugins describes types by
descriptions alone.  One name may lead to another without going down a level, so the number of names
in a row is bounded by a number of steps, which may be any number.

With a level left, a type is described by the first available answer, in the order in which the
plugins were registered, with the standard library behind them and the declaration last
(`Registry.describeAt_succ`).  Without a level nobody is asked.  Nothing else about the plugins counts
(`Registry.SameFirst.describeAt_eq`), and in particular a plugin that never has an answer does not,
wherever it stands and whatever it asks (`Registry.AddsIdle.sameFirst`).

The chain that runs keeps a log, and its resolvers pass the log on.  For resolvers that do not make
their answers depend on it (`Resolver.IsBlind`), what the chain gives is what its registry gives
(`Chain.value_resolveAt`).
-/
namespace RouteBook

/-! ### Plugins -/

/-- What a plugin may use. -/
structure Session where
  /-- The declared types. -/
  index : TypeIndex
  /-- The texts of the types that are being expanded, the innermost first. -/
  expanding : List String
  /-- Describes a type while further texts, the innermost first, count as being expanded. -/
  resolve : List String → TypeTerm → Schema
  /-- Describes a type by its name while further texts count as being expanded. -/
  resolveName : List String → String → Schema

/-- Describes what is of one kind: a type (`Plugin`) or the name of a type (`NamePlugin`). -/
abbrev Answerer (α : Type) := Session → α → Schema

abbrev Plugin := Answerer TypeTerm
abbrev NamePlugin := Answerer String

/-- The plugins for types and those for names, in the order in which they were registered. -/
structure Registry where
  plugins : List Plugin
  names : List NamePlugin

namespace Answerer

variable {α : Type}

/-- Asks one after another until an answer is available, and `last` if there is none. -/
def first (last : Answerer α) (session : Session) (a : α) : List (Answerer α) → Schema
  | [] => last session a
  | p :: ps => if (p session a).isAvailable then p session a else first last session a ps

/-- **The first available answer counts.** -/
theorem first_eq (last : Answerer α) (session : Session) (a : α) (ps : List (Answerer α)) :
    first last session a ps =
      ((ps.map fun p => p session a).find? Schema.isAvailable).getD (last session a) := by
  induction ps with
  | nil => rfl
  | cons p ps ih =>
    rw [first, List.map_cons, List.find?_cons]
    cases (p session a).isAvailable with
    | false => exact ih
    | true => rfl

/-- Never has an answer. -/
def IsIdle (p : Answerer α) : Prop := ∀ session a, (p session a).isAvailable = false

/-- Who never has an answer makes no difference. -/
theorem IsIdle.first_insert {p : Answerer α} (idle : p.IsIdle) (last : Answerer α)
    (session : Session) (a : α) (before after : List (Answerer α)) :
    first last session a (before ++ p :: after) = first last session a (before ++ after) := by
  induction before with
  | nil =>
    rw [List.nil_append, List.nil_append, first, idle session a]
    rfl
  | cons q before ih => rw [List.cons_append, List.cons_append, first, first, ih]

end Answerer

/-- A resolver as a plugin: the log of the answers that it gets is empty. -/
def Resolver.plugin (r : Resolver) : Plugin := fun session t =>
  (r ⟨session.index, fun u => ⟨session.resolve [] u, []⟩⟩ t).value

/-- A resolver of names as a plugin. -/
def NameResolver.plugin (r : NameResolver) : NamePlugin := fun session name =>
  (r ⟨fun t => ⟨session.resolve [] t, []⟩, fun n => ⟨session.resolveName [] n, []⟩⟩ name).value

namespace Registry

/-- Describes a type by its declaration, while its text counts as being expanded. -/
def declared : Plugin := fun session t =>
  (Declared.resolve session.index session.expanding
    (fun u => ⟨session.resolve [t.text] u, []⟩) t).value

/-- Describes what a name says if it is read as a type. -/
def parsed : NamePlugin := fun session name =>
  match TypeTerm.parse? name with
  | some t => session.resolve [] t
  | none => .unavailable name

/-- The standard library. -/
def builtIns : List Plugin := Standard.resolvers.map Resolver.plugin

/-- What can be used where `resolve` and `resolveName` describe types, given what is being
expanded. -/
def session (index : TypeIndex) (resolve : List String → TypeTerm → Schema)
    (resolveName : List String → String → Schema) (expanding : List String) : Session where
  index := index
  expanding := expanding
  resolve more := resolve (more ++ expanding)
  resolveName more := resolveName (more ++ expanding)

/-- Describes a type by its name, through at most so many names. -/
def nameIn (names : List NamePlugin) (index : TypeIndex)
    (resolve : List String → TypeTerm → Schema) : Nat → List String → String → Schema
  | 0, _, name => .unavailable name
  | steps + 1, expanding, name =>
    Answerer.first parsed (session index resolve (nameIn names index resolve steps) expanding) name
      names

variable (R : Registry) (index : TypeIndex) (steps : Nat)

/-- Describes a type, with so many levels left and those texts being expanded. -/
def describeAt : Nat → List String → TypeTerm → Schema
  | 0, _, t => .recursive t.text
  | levels + 1, expanding, t =>
    Answerer.first declared
      (session index (describeAt levels) (nameIn R.names index (describeAt levels) steps) expanding) t
      (R.plugins ++ builtIns)

/-- Describes a type by its name, with so many levels left. -/
def nameAt (levels : Nat) : List String → String → Schema :=
  nameIn R.names index (R.describeAt index steps levels) steps

/-- What a plugin may use with so many levels left. -/
def sessionAt (levels : Nat) : List String → Session :=
  session index (R.describeAt index steps levels) (R.nameAt index steps levels)

/-! ### The order of the answers -/

/-- **With a level left, a type is described by the first available answer**, in the order of the
plugins, then of the standard library, and by its declaration if there is none. -/
theorem describeAt_succ (levels : Nat) (expanding : List String) (t : TypeTerm) :
    R.describeAt index steps (levels + 1) expanding t =
      (((R.plugins ++ builtIns).map fun p => p (R.sessionAt index steps levels expanding) t).find?
        Schema.isAvailable).getD (declared (R.sessionAt index steps levels expanding) t) :=
  Answerer.first_eq _ _ _ _

variable {R}

/-- The first available answers of two registries are the same, whoever gives them. -/
structure SameFirst (R R' : Registry) : Prop where
  plugins : ∀ last session t,
    Answerer.first last session t (R'.plugins ++ builtIns) =
      Answerer.first last session t (R.plugins ++ builtIns)
  names : ∀ last session name,
    Answerer.first last session name R'.names = Answerer.first last session name R.names

namespace SameFirst

variable {R' : Registry} {index : TypeIndex} {steps : Nat}

/-- Names that lead to the same types, through any number of names. -/
theorem nameIn_eq (same : R.SameFirst R') (resolve : List String → TypeTerm → Schema) :
    nameIn R'.names index resolve steps = nameIn R.names index resolve steps := by
  induction steps with
  | zero => rfl
  | succ steps ih =>
    funext expanding name
    rw [nameIn, nameIn, ih, same.names]

/-- **Only the first available answers count**, at every level. -/
theorem describeAt_eq (same : R.SameFirst R') (levels : Nat) :
    R'.describeAt index steps levels = R.describeAt index steps levels := by
  induction levels with
  | zero => rfl
  | succ levels ih =>
    funext expanding t
    rw [describeAt, describeAt, ih, same.nameIn_eq, same.plugins]

theorem nameAt_eq (same : R.SameFirst R') (levels : Nat) :
    R'.nameAt index steps levels = R.nameAt index steps levels := by
  rw [nameAt, nameAt, same.describeAt_eq, same.nameIn_eq]

end SameFirst

/-- A registry with one more plugin, for types or for names, which never has an answer. -/
inductive AddsIdle : Registry → Registry → Prop
  | plugin {before after : List Plugin} {names : List NamePlugin} {p : Plugin} (idle : p.IsIdle) :
      AddsIdle ⟨before ++ after, names⟩ ⟨before ++ p :: after, names⟩
  | name {plugins : List Plugin} {before after : List NamePlugin} {p : NamePlugin}
      (idle : p.IsIdle) : AddsIdle ⟨plugins, before ++ after⟩ ⟨plugins, before ++ p :: after⟩

theorem AddsIdle.sameFirst {R' : Registry} (h : R.AddsIdle R') : R.SameFirst R' := by
  cases h with
  | @plugin before after names p idle =>
    refine ⟨fun last session t => ?_, fun _ _ _ => rfl⟩
    rw [List.append_assoc, List.cons_append, idle.first_insert, List.append_assoc]
  | name idle => exact ⟨fun _ _ _ => rfl, fun last session n => idle.first_insert last session n _ _⟩

end Registry

/-! ### The chain that runs -/

/-- A resolver whose descriptions do not depend on the log of the answers that it gets. -/
def Resolver.IsBlind (r : Resolver) : Prop :=
  ∀ (index : TypeIndex) (answer₁ answer₂ : TypeTerm → Logged Schema) (t : TypeTerm),
    (∀ u, (answer₁ u).value = (answer₂ u).value) →
    (r ⟨index, answer₁⟩ t).value = (r ⟨index, answer₂⟩ t).value

/-- A resolver of names whose descriptions do not depend on the log. -/
def NameResolver.IsBlind (r : NameResolver) : Prop :=
  ∀ (scope₁ scope₂ : NameScope) (name : String),
    (∀ t, (scope₁.resolve t).value = (scope₂.resolve t).value) →
    (∀ n, (scope₁.resolveName n).value = (scope₂.resolveName n).value) →
    (r scope₁ name).value = (r scope₂ name).value

theorem Resolver.IsDirect.isBlind {r : Resolver} (h : r.IsDirect) : r.IsBlind := by
  intro index answer₁ answer₂ t same
  obtain ⟨x, hx⟩ | ⟨u, -, f, -, hf⟩ := h index t
  · rw [hx, hx]
  · rw [hf, hf]
    exact congrArg f (same u)

theorem Spring.isBlind_componentName : componentName.IsBlind := by
  intro scope₁ scope₂ name types names
  unfold componentName
  dsimp only
  cases elementName? (Text.trimmed name) with
  | some element =>
    rw [Logged.value_bind, Logged.value_bind, names element]
  | none =>
    cases TypeTerm.parse? (Text.trimmed name) with
    | none => rfl
    | some t =>
      dsimp only
      cases sequenceNames.contains t.name && t.args.length == 1 with
      | true => exact types _
      | false => rfl

namespace Declared

variable {inner₁ inner₂ : TypeTerm → Logged Schema}

theorem value_addField_congr (same : ∀ u, (inner₁ u).value = (inner₂ u).value) (r : RecordShape)
    (t : TypeTerm) (object : Schema) (f : FieldShape) :
    (addField inner₁ r t object f).value = (addField inner₂ r t object f).value := by
  unfold addField
  cases f.rules.skip with
  | true => rfl
  | false =>
    have part := same (f.type.substitute (bindings r t))
    dsimp only
    rw [if_neg Bool.false_ne_true, if_neg Bool.false_ne_true, Logged.value_bind, Logged.value_bind,
      part]

theorem value_addFields_congr (same : ∀ u, (inner₁ u).value = (inner₂ u).value) (r : RecordShape)
    (t : TypeTerm) (object : Schema) (fields : List FieldShape) :
    (addFields inner₁ r t object fields).value = (addFields inner₂ r t object fields).value := by
  induction fields generalizing object with
  | nil => rfl
  | cons f fields ih =>
    rw [addFields, addFields, Logged.value_bind, Logged.value_bind, value_addField_congr same, ih]

/-- The log of the parts of a type does not change its description. -/
theorem value_resolve_congr (same : ∀ u, (inner₁ u).value = (inner₂ u).value) (index : TypeIndex)
    (expanding : List String) (t : TypeTerm) :
    (resolve index expanding inner₁ t).value = (resolve index expanding inner₂ t).value := by
  unfold resolve
  split
  · rfl
  · rfl
  · split
    · rfl
    · exact value_addFields_congr same _ _ _ _
  · split
    · rfl
    · exact same _

end Declared

/-- The resolvers of names and of types in a chain, as plugins. -/
def Chain.registry (chain : Chain) : Registry :=
  ⟨chain.plugins.map Resolver.plugin, chain.names.map NameResolver.plugin⟩

namespace Chain

/-- No resolver of the chain makes its answers depend on the log. -/
structure IsBlind (chain : Chain) : Prop where
  plugins : ∀ r ∈ chain.plugins, r.IsBlind
  names : ∀ r ∈ chain.names, r.IsBlind

theorem IsBuiltIn.isBlind {chain : Chain} (h : chain.IsBuiltIn) : chain.IsBlind where
  plugins r hr := (h.isDirect r hr).isBlind
  names r hr := by
    obtain rfl | rfl := h
    · exact absurd hr List.not_mem_nil
    · rw [List.mem_singleton.mp hr]
      exact Spring.isBlind_componentName

/-- A loop that asks resolvers until an answer is available gives what their plugins give. -/
theorem value_loop {ρ α : Type} (ask : ρ → Logged Schema) (plugin : ρ → Answerer α)
    {loop : List ρ → Logged Schema} {last : Answerer α} {session : Session} {a : α} {rs : List ρ}
    (step : ∀ r rs, loop (r :: rs) = do
      let s ← ask r
      if s.isAvailable then return s else loop rs)
    (answers : ∀ r ∈ rs, (ask r).value = plugin r session a)
    (otherwise : (loop []).value = last session a) :
    (loop rs).value = Answerer.first last session a (rs.map plugin) := by
  induction rs with
  | nil => exact otherwise
  | cons r rs ih =>
    have rest := ih fun q hq => answers q (List.mem_cons_of_mem _ hq)
    rw [step, Logged.value_bind, List.map_cons, Answerer.first, answers r List.mem_cons_self]
    cases (plugin r session a).isAvailable with
    | true => rfl
    | false => exact rest

variable {chain : Chain}

/-- **What the chain gives for a type is what its registry gives.** -/
theorem value_resolveAt (blind : chain.IsBlind) (index : TypeIndex) (steps levels : Nat)
    (expanding : List String) (t : TypeTerm) :
    (chain.resolveAt index levels expanding t).value =
      chain.registry.describeAt index steps levels expanding t := by
  induction levels generalizing expanding t with
  | zero => rfl
  | succ levels ih =>
    have resolvers : chain.registry.plugins ++ Registry.builtIns =
        (chain.plugins ++ Standard.resolvers).map Resolver.plugin := List.map_append.symm
    rw [resolveAt, Registry.describeAt, resolvers]
    refine value_loop (fun r => r (chain.scopeAt index levels expanding) t) Resolver.plugin
      (fun _ _ => rfl) (fun r hr => ?_) ?_
    · have hblind : r.IsBlind := by
        obtain hr | hr := List.mem_append.mp hr
        · exact blind.plugins r hr
        · exact (Standard.isDirect_of_mem hr).isBlind
      exact hblind index _ _ t fun u => ih expanding u
    · exact Declared.value_resolve_congr (fun u => ih (t.text :: expanding) u) index expanding t

/-- **And so it is for a name**, whatever number of names it leads through. -/
theorem value_resolveNameAt (blind : chain.IsBlind) (index : TypeIndex) (steps : Nat)
    (name : String) :
    (chain.resolveNameAt index steps name).value =
      chain.registry.nameAt index steps maxNesting [] name := by
  have types (t : TypeTerm) : (chain.resolve index t).value =
      chain.registry.describeAt index steps maxNesting [] t :=
    value_resolveAt blind index steps maxNesting [] t
  unfold Registry.nameAt
  -- the types are described with all the names there are, whatever number of them is left
  generalize chain.registry.describeAt index steps maxNesting = describe at types
  induction steps generalizing name with
  | zero => rfl
  | succ steps ih =>
    rw [resolveNameAt, Registry.nameIn]
    refine value_loop (fun r => r ⟨chain.resolve index, resolveNameAt chain index steps⟩ name)
      NameResolver.plugin (fun _ _ => rfl) (fun r hr => ?_) ?_
    · exact blind.names r hr _ _ name types fun n => ih n
    · show (match TypeTerm.parse? name with
        | some t => chain.resolve index t
        | none => pure (.unavailable name)).value = Registry.parsed _ name
      unfold Registry.parsed
      cases TypeTerm.parse? name with
      | none => rfl
      | some t => exact types t

/-- A chain with one more resolver, for types or for names, which never has an answer. -/
inductive AddsIdle : Chain → Chain → Prop
  | plugin {before after : List Resolver} {names : List NameResolver} {r : Resolver}
      (idle : ∀ scope t, (r scope t).value.isAvailable = false) :
      AddsIdle ⟨before ++ after, names⟩ ⟨before ++ r :: after, names⟩
  | name {plugins : List Resolver} {before after : List NameResolver} {r : NameResolver}
      (idle : ∀ scope name, (r scope name).value.isAvailable = false) :
      AddsIdle ⟨plugins, before ++ after⟩ ⟨plugins, before ++ r :: after⟩

theorem AddsIdle.registry {chain' : Chain} (h : chain.AddsIdle chain') :
    chain.registry.AddsIdle chain'.registry := by
  cases h with
  | plugin idle =>
    unfold Chain.registry
    rw [List.map_append, List.map_append, List.map_cons]
    exact .plugin fun session t => idle _ t
  | name idle =>
    unfold Chain.registry
    rw [List.map_append, List.map_append, List.map_cons]
    exact .name fun session name => idle _ name

/-- **A resolver that never has an answer makes no difference**, wherever it stands and whatever is
asked for, at any level. -/
theorem AddsIdle.value_eq {chain' : Chain} (h : chain.AddsIdle chain') (blind : chain.IsBlind)
    (blind' : chain'.IsBlind) (index : TypeIndex) :
    (∀ levels expanding t, (chain'.resolveAt index levels expanding t).value =
      (chain.resolveAt index levels expanding t).value) ∧
    ∀ steps name, (chain'.resolveNameAt index steps name).value =
      (chain.resolveNameAt index steps name).value := by
  have same := h.registry.sameFirst
  refine ⟨fun levels expanding t => ?_, fun steps name => ?_⟩
  · rw [value_resolveAt blind' index 0, value_resolveAt blind index 0, same.describeAt_eq]
  · rw [value_resolveNameAt blind', value_resolveNameAt blind, same.nameAt_eq]

end Chain

/-- **The first available answer counts.**  Whatever plugins there are, a type is described by the
first available answer as long as a level is left: the plugins are asked in their order, then the
standard library, and the declaration comes last.  Without a level it is a recursive marker.  So one
more plugin that never has an answer, for types or for names, changes no description at any level.
The chain that runs gives these descriptions, for types and for names, and so does it with a resolver
more that never has an answer. -/
theorem Registry.first_available_counts (index : TypeIndex) (steps : Nat) :
    (∀ (R : Registry) (expanding : List String) (t : TypeTerm),
      (∀ levels, R.describeAt index steps (levels + 1) expanding t =
        (((R.plugins ++ builtIns).map fun p => p (R.sessionAt index steps levels expanding) t).find?
          Schema.isAvailable).getD (declared (R.sessionAt index steps levels expanding) t)) ∧
      R.describeAt index steps 0 expanding t = .recursive t.text) ∧
    (∀ R R' : Registry, R.AddsIdle R' → ∀ levels,
      R'.describeAt index steps levels = R.describeAt index steps levels ∧
      R'.nameAt index steps levels = R.nameAt index steps levels) ∧
    ∀ chain : Chain, chain.IsBlind →
      (∀ levels expanding t, (chain.resolveAt index levels expanding t).value =
        chain.registry.describeAt index steps levels expanding t) ∧
      (∀ name, (chain.resolveNameAt index steps name).value =
        chain.registry.nameAt index steps maxNesting [] name) ∧
      ∀ chain' : Chain, chain.AddsIdle chain' → chain'.IsBlind →
        (∀ levels expanding t, (chain'.resolveAt index levels expanding t).value =
          (chain.resolveAt index levels expanding t).value) ∧
        ∀ name, (chain'.resolveNameAt index steps name).value =
          (chain.resolveNameAt index steps name).value := by
  refine ⟨fun R expanding t => ⟨fun levels => R.describeAt_succ index steps levels expanding t, rfl⟩,
    fun R R' added levels => ?_, fun chain blind => ?_⟩
  · exact ⟨added.sameFirst.describeAt_eq levels, added.sameFirst.nameAt_eq levels⟩
  · refine ⟨Chain.value_resolveAt blind index steps, Chain.value_resolveNameAt blind index steps, ?_⟩
    intro chain' added blind'
    obtain ⟨types, names⟩ := added.value_eq blind blind' index
    exact ⟨types, names steps⟩

/-- A resolver that asks the chain about every type once more, and never has an answer. -/
def nosy : Resolver := fun scope t => do
  let _ ← scope.resolve t
  Resolver.unknown t

/-- The chain of the framework with a resolver that goes before all others. -/
def nosyChain : Chain := ⟨[nosy, Spring.component], [Spring.componentName]⟩

/-- All its questions make no difference. -/
theorem nosy_makes_no_difference :
    (nosyChain.resolve ⟨[]⟩ (.applied "Page" [.named "u64"])).value =
      (Spring.chain.resolve ⟨[]⟩ (.applied "Page" [.named "u64"])).value ∧
    (nosyChain.resolveName ⟨[]⟩ "List<u64>").value =
      (Spring.chain.resolveName ⟨[]⟩ "List<u64>").value ∧
    nosyChain.registry.nameAt ⟨[]⟩ 10 maxNesting = Spring.chain.registry.nameAt ⟨[]⟩ 10 maxNesting := by
  have added : Spring.chain.AddsIdle nosyChain :=
    @Chain.AddsIdle.plugin [] [Spring.component] [Spring.componentName] nosy fun _ _ => rfl
  have blind : Spring.chain.IsBlind := Chain.IsBuiltIn.isBlind (.inr rfl)
  have blind' : nosyChain.IsBlind := by
    refine ⟨fun r hr => ?_, blind.names⟩
    rcases List.mem_cons.mp hr with rfl | hr
    · exact fun _ _ _ _ _ => rfl
    · exact blind.plugins r hr
  obtain ⟨-, idle, runs⟩ := Registry.first_available_counts ⟨[]⟩ 10
  obtain ⟨types, names⟩ := (runs Spring.chain blind).2.2 nosyChain added blind'
  exact ⟨types maxNesting [] _, names "List<u64>", (idle _ _ added.registry maxNesting).2⟩

/-! ### The last level -/

/-- A plugin that knows amounts of money. -/
def money : Resolver := fun _ t =>
  if t.name = "Money" then return .ofText "Money" "12.50" else Resolver.unknown t

/-- Lists of lists, so many of them. -/
def lists : Nat → TypeTerm → TypeTerm
  | 0, t => t
  | n + 1, t => .applied "Vec" [lists n t]

/-- The description of lists of lists, given that of what is in them. -/
def elements : Nat → Schema → Schema
  | 0, s => s
  | n + 1, s => .ofElement (elements n s)

/-- What is in the innermost lists. -/
def innermost : Nat → Schema → Option Schema
  | 0, s => some s
  | n + 1, s => s.element?.bind (innermost n)

/-- **Behind the last level no plugin is asked**, although it has an answer. -/
theorem money_behind_last_level :
    ¬ ∀ (n : Nat) (s : Schema), s.isAvailable = true →
      (∀ scope, (money scope (.named "Money")).value = s) →
      (Chain.resolve ⟨[money], []⟩ ⟨[]⟩ (lists n (.named "Money"))).value = elements n s := by
  intro law
  have said := law maxNesting (.ofText "Money" "12.50") rfl fun _ => rfl
  have scalar := congrArg (fun s => (innermost maxNesting s).map Schema.isScalar) said
  exact absurd scalar (by decide +kernel)

end RouteBook
