import RouteBook.Proofs.Describe.Answers
/-! # Wrappers

A pointer, a cell, an option, or a payload of the framework is written as what it holds.  A stack of
such wrappers is described as its content (`Chain.resolve_stack`): every wrapper takes a level and
leaves the answer as it is, but for an option, whose content is not required.

The whole chain is asked again for each of the wrappers.  What settles the answer is that a resolver
knows certain names only (`Resolver.Knows`), and that none of those asked before knows the name of
the wrapper.  Declarations are not asked at all, since an answer has been found by then.  So types
that are declared under the names of wrappers make no difference.
-/
namespace RouteBook

/-! ### What resolvers know -/

namespace Resolver

/-- A resolver that knows no types but those with certain names, and arrays. -/
def Knows (r : Resolver) (names : List String) : Prop :=
  ∀ (scope : Scope) (t : TypeTerm), t.isArray = false → t.name ∉ names → r scope t = unknown t

/-- **Whose turn it is.**  If none of the resolvers before it knows a type, then the available answer
of a resolver counts. -/
theorem first_eq_of_turn {last : Resolver} {scope : Scope} {t : TypeTerm}
    {before after : List Resolver} {r : Resolver} (passed : ∀ q ∈ before, q scope t = unknown t)
    (available : (r scope t).value.isAvailable = true) :
    first last scope t (before ++ r :: after) = r scope t := by
  induction before with
  | nil =>
    rw [List.nil_append, first]
    refine (Logged.bind_of_silent _ ?_).trans ?_
    · rw [available]
      rfl
    · rw [available]
      rfl
  | cons q before ih =>
    rw [List.cons_append, first, passed q List.mem_cons_self]
    exact ih fun q' hq' => passed q' (List.mem_cons_of_mem _ hq')

end Resolver

namespace Standard
open Resolver

theorem isOneOf_eq_false {t : TypeTerm} {names : List String} (h : t.name ∉ names) :
    isOneOf t names = false := by
  rw [isOneOf, List.contains_eq_mem, decide_eq_false h, Bool.and_false]

theorem knows_primitive : Knows primitive (integers ++ floats ++ ["bool"]) := by
  intro scope t _ h
  simp only [List.mem_append, not_or] at h
  rw [primitive, isOneOf_eq_false h.1.1, isOneOf_eq_false h.1.2, isOneOf_eq_false h.2]
  rfl

theorem knows_text : Knows text textLike := by
  intro scope t _ h
  rw [text, isOneOf_eq_false h]
  rfl

theorem knows_option : Knows option ["Option"] := by
  intro scope t _ h
  rw [option, isOneOf_eq_false h]
  cases t.first? <;> rfl

theorem knows_collection : Knows collection collections := by
  intro scope t harray h
  have other : (t.isArray || collections.contains t.name) = false := by
    rw [harray, List.contains_eq_mem, decide_eq_false h, Bool.or_false]
  rw [collection, other]
  cases t.first? <;> rfl

theorem knows_map : Knows map maps := by
  intro scope t _ h
  rw [map, isOneOf_eq_false h]
  rfl

end Standard

namespace Spring
open Resolver

/-- The names that the framework knows. -/
def knownNames : List String := transparent ++ fileTypes ++ ["Page", "Pageable"]

theorem knows_component : Knows component knownNames := by
  intro scope t harray h
  simp only [knownNames, List.mem_append, List.mem_cons, List.not_mem_nil, or_false, not_or] at h
  obtain ⟨⟨held, file⟩, page, pageable⟩ := h
  unfold component
  rw [harray, List.contains_eq_mem, decide_eq_false held, List.contains_eq_mem,
    decide_eq_false file, if_neg Bool.false_ne_true, if_neg Bool.false_ne_true,
    if_neg Bool.false_ne_true, if_neg page, decide_eq_false pageable, Bool.false_and,
    if_neg Bool.false_ne_true, ite_self]

end Spring

/-! ### Wrappers and stacks of them -/

/-- A wrapper: its name, and the arguments behind the content. -/
structure Wrapper where
  name : String
  more : List TypeTerm

namespace Wrapper

/-- A type in a wrapper. -/
def around (w : Wrapper) (t : TypeTerm) : TypeTerm := .applied w.name (t :: w.more)

/-- A type in several wrappers, the outermost first. -/
def stack (ws : List Wrapper) (t : TypeTerm) : TypeTerm := ws.foldr around t

def isOption (w : Wrapper) : Bool := w.name == "Option"

/-- What a wrapper makes of the description of its content. -/
def describe (w : Wrapper) (s : Schema) : Schema :=
  if w.isOption then s.withRequired false else s

@[simp] theorem isAvailable_describe (w : Wrapper) (s : Schema) :
    (w.describe s).isAvailable = s.isAvailable := by
  unfold describe
  split
  · exact Schema.isAvailable_withRequired s false
  · rfl

/-- What several wrappers make of it. -/
def describeAll (ws : List Wrapper) (s : Schema) : Schema :=
  if ws.any isOption then s.withRequired false else s

@[simp] theorem isAvailable_describeAll (ws : List Wrapper) (s : Schema) :
    (describeAll ws s).isAvailable = s.isAvailable := by
  unfold describeAll
  split
  · exact Schema.isAvailable_withRequired s false
  · rfl

/-- One option is as good as several. -/
theorem describe_describeAll (w : Wrapper) (ws : List Wrapper) (s : Schema) :
    w.describe (describeAll ws s) = describeAll (w :: ws) s := by
  have twice : (s.withRequired false).withRequired false = s.withRequired false := by
    cases s <;> rfl
  unfold describe describeAll
  rw [List.any_cons]
  cases w.isOption with
  | false => rfl
  | true =>
    cases ws.any isOption with
    | false => rfl
    | true => exact twice

end Wrapper

namespace Chain
open Resolver Standard

/-- **The wrappers that a chain writes as what they hold**: options, pointers and cells, and with the
framework, its payloads. -/
inductive Unwraps : Chain → String → Prop
  | option {chain : Chain} (h : chain.IsBuiltIn) : Unwraps chain "Option"
  | pointer {chain : Chain} (h : chain.IsBuiltIn) {name : String} (hname : name ∈ wrappers) :
      Unwraps chain name
  | payload {name : String} (hname : name ∈ Spring.transparent) : Unwraps Spring.chain name

/-- A question about a type of the given name, no array, comes to a resolver: none of those that are
asked before it knows the name. -/
def ComesTo (chain : Chain) (name : String) (r : Resolver) : Prop :=
  ∃ before after, chain.plugins ++ Standard.resolvers = before ++ r :: after ∧
    ∀ q ∈ before, ∃ names, q.Knows names ∧ name ∉ names

variable {chain : Chain} {index : TypeIndex} {levels : Nat} {expanding : List String}

theorem resolveAt_eq_of_comesTo {t : TypeTerm} {r : Resolver} (turn : chain.ComesTo t.name r)
    (harray : t.isArray = false)
    (available : (r (chain.scopeAt index levels expanding) t).value.isAvailable = true) :
    chain.resolveAt index (levels + 1) expanding t =
      r (chain.scopeAt index levels expanding) t := by
  obtain ⟨before, after, split, passed⟩ := turn
  rw [resolveAt, split]
  refine first_eq_of_turn (fun q hq => ?_) available
  obtain ⟨names, knows, other⟩ := passed q hq
  exact knows _ t harray other

/-- The plugins of a chain in use know the names of the framework only. -/
theorem IsBuiltIn.knows_of_mem (h : chain.IsBuiltIn) {r : Resolver} (hr : r ∈ chain.plugins) :
    r.Knows Spring.knownNames := by
  rw [h.eq_component hr]
  exact Spring.knows_component

theorem comesTo_option (h : chain.IsBuiltIn) : chain.ComesTo "Option" option := by
  refine ⟨chain.plugins ++ [primitive, text], [collection, map, wrapper], ?_, fun q hq => ?_⟩
  · rw [List.append_assoc]
    rfl
  · rcases List.mem_append.mp hq with hq | hq
    · exact ⟨_, h.knows_of_mem hq, by decide⟩
    · simp only [List.mem_cons, List.not_mem_nil, or_false] at hq
      rcases hq with rfl | rfl
      · exact ⟨_, knows_primitive, by decide⟩
      · exact ⟨_, knows_text, by decide⟩

/-- No other resolver knows the name of a pointer or cell. -/
theorem pointer_apart : ∀ name ∈ wrappers,
    name ∉ Spring.knownNames ∧ name ∉ integers ++ floats ++ ["bool"] ∧ name ∉ textLike ∧
      name ∉ ["Option"] ∧ name ∉ collections ∧ name ∉ maps := by
  decide

theorem comesTo_wrapper (h : chain.IsBuiltIn) {name : String} (hname : name ∈ wrappers) :
    chain.ComesTo name wrapper := by
  obtain ⟨framework, number, textual, optional, collected, mapped⟩ := pointer_apart name hname
  refine ⟨chain.plugins ++ [primitive, text, option, collection, map], [], ?_, fun q hq => ?_⟩
  · rw [List.append_assoc]
    rfl
  · rcases List.mem_append.mp hq with hq | hq
    · exact ⟨_, h.knows_of_mem hq, framework⟩
    · simp only [List.mem_cons, List.not_mem_nil, or_false] at hq
      rcases hq with rfl | rfl | rfl | rfl | rfl
      · exact ⟨_, knows_primitive, number⟩
      · exact ⟨_, knows_text, textual⟩
      · exact ⟨_, knows_option, optional⟩
      · exact ⟨_, knows_collection, collected⟩
      · exact ⟨_, knows_map, mapped⟩

theorem comesTo_component (name : String) : Spring.chain.ComesTo name Spring.component :=
  ⟨[], Standard.resolvers, rfl, fun _ hq => absurd hq List.not_mem_nil⟩

/-- The resolver that a wrapper comes to answers with the description of the content. -/
theorem Unwraps.exists_answer {w : Wrapper} (h : chain.Unwraps w.name) :
    ∃ r, chain.ComesTo w.name r ∧ ∀ (scope : Scope) (t : TypeTerm),
      r scope (w.around t) =
        ⟨w.describe (scope.resolve t).value, (scope.resolve t).warnings⟩ := by
  obtain ⟨name, more⟩ := w
  cases h with
  | option h => exact ⟨Standard.option, comesTo_option h, fun scope t => Logged.bind_of_silent _ rfl⟩
  | pointer h hname =>
    have plain : Wrapper.isOption ⟨name, more⟩ = false := by
      obtain ⟨-, -, -, optional, -⟩ := pointer_apart name hname
      exact beq_false_of_ne fun he => optional (List.mem_singleton.mpr he)
    refine ⟨wrapper, comesTo_wrapper h hname, fun scope t => ?_⟩
    rw [Wrapper.describe, plain]
    exact if_pos (List.contains_iff_mem.mpr hname)
  | payload hname =>
    have plain : Wrapper.isOption ⟨name, more⟩ = false := by
      have apart : ∀ name ∈ Spring.transparent, name ≠ "Option" := by decide
      exact beq_false_of_ne (apart name hname)
    refine ⟨Spring.component, comesTo_component name, fun scope t => ?_⟩
    rw [Wrapper.describe, plain]
    exact (if_neg Bool.false_ne_true).trans (if_pos (List.contains_iff_mem.mpr hname))

/-- **One wrapper** takes a level, and is written as what it holds. -/
theorem resolveAt_around {w : Wrapper} (h : chain.Unwraps w.name) {t : TypeTerm}
    (available : (chain.resolveAt index levels expanding t).value.isAvailable = true) :
    chain.resolveAt index (levels + 1) expanding (w.around t) =
      ⟨w.describe (chain.resolveAt index levels expanding t).value,
        (chain.resolveAt index levels expanding t).warnings⟩ := by
  obtain ⟨r, turn, answer⟩ := h.exists_answer
  have found := answer (chain.scopeAt index levels expanding) t
  refine (resolveAt_eq_of_comesTo turn rfl ?_).trans found
  rw [found, Wrapper.isAvailable_describe]
  exact available

/-- **A stack of wrappers** takes a level for each of them. -/
theorem resolveAt_stack {ws : List Wrapper} (h : ∀ w ∈ ws, chain.Unwraps w.name) {t : TypeTerm}
    (available : (chain.resolveAt index levels expanding t).value.isAvailable = true) :
    chain.resolveAt index (levels + ws.length) expanding (Wrapper.stack ws t) =
      ⟨Wrapper.describeAll ws (chain.resolveAt index levels expanding t).value,
        (chain.resolveAt index levels expanding t).warnings⟩ := by
  induction ws with
  | nil => rfl
  | cons w ws ih =>
    have inner := ih fun w' hw' => h w' (List.mem_cons_of_mem _ hw')
    have still : (chain.resolveAt index (levels + ws.length) expanding
        (Wrapper.stack ws t)).value.isAvailable = true := by
      rw [inner, Wrapper.isAvailable_describeAll]
      exact available
    rw [List.length_cons, ← Nat.add_assoc]
    refine (resolveAt_around (h w List.mem_cons_self) still).trans ?_
    rw [inner, Wrapper.describe_describeAll]

/-- Without a level there is nothing but a warning. -/
theorem levels_ne_zero_of_uncut {t : TypeTerm}
    (uncut : ∀ u, Warning.nestedTooDeep u ∉ (chain.resolveAt index levels expanding t).warnings) :
    levels ≠ 0 := by
  rintro rfl
  exact uncut t List.mem_cons_self

/-- **Wrappers are transparent.**  Whatever types are declared, if a type is available `n` levels
down and nothing is cut there, then the stack of `n` wrappers around it has its description, which is
not required if one of them is an option. -/
theorem resolve_stack (chain : Chain) (index : TypeIndex) (ws : List Wrapper) (t : TypeTerm)
    (unwraps : ∀ w ∈ ws, chain.Unwraps w.name)
    (available : (chain.resolveAt index (maxNesting - ws.length) [] t).value.isAvailable = true)
    (uncut : ∀ u, Warning.nestedTooDeep u ∉
      (chain.resolveAt index (maxNesting - ws.length) [] t).warnings) :
    chain.resolve index (Wrapper.stack ws t) =
      ⟨Wrapper.describeAll ws (chain.resolveAt index (maxNesting - ws.length) [] t).value,
        (chain.resolveAt index (maxNesting - ws.length) [] t).warnings⟩ := by
  have below : ws.length ≤ maxNesting := by
    have := levels_ne_zero_of_uncut uncut
    omega
  rw [← resolveAt_stack unwraps available, Nat.sub_add_cancel below]
  rfl

/-- A structure under the name of a pointer. -/
def boxIndex : TypeIndex where
  shapes := [("Box", .record ⟨"Box", [], [⟨"width", .named "u32", .none, none, none⟩]⟩)]

/-- `Json<Option<Box<..>>, Error>`. -/
def optionalPayload : List Wrapper := [⟨"Json", [.named "Error"]⟩, ⟨"Option", []⟩, ⟨"Box", []⟩]

/-- A pointer to a box is described as the box that is declared. -/
theorem resolve_optionalPayload :
    (Spring.chain.resolve boxIndex (Wrapper.stack optionalPayload (.named "Box"))).value =
      (Spring.chain.resolveAt boxIndex 13 [] (.named "Box")).value.withRequired false := by
  have unwraps : ∀ w ∈ optionalPayload, Spring.chain.Unwraps w.name := by
    intro w hw
    simp only [optionalPayload, List.mem_cons, List.not_mem_nil, or_false] at hw
    rcases hw with rfl | rfl | rfl
    · exact .payload (by decide)
    · exact .option (.inr rfl)
    · exact .pointer (.inr rfl) (by decide)
  have available : (Spring.chain.resolveAt boxIndex 13 [] (.named "Box")).value.isAvailable = true := by
    decide +kernel
  have silent : (Spring.chain.resolveAt boxIndex 13 [] (.named "Box")).warnings = [] := by rfl
  have described := resolve_stack Spring.chain boxIndex optionalPayload (.named "Box") unwraps
    available (fun u hu => absurd (silent ▸ hu) List.not_mem_nil)
  exact congrArg Logged.value described

end Chain
end RouteBook
