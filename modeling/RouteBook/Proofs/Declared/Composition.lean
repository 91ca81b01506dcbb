import RouteBook.Describe.Chain
import RouteBook.Proofs.Declared.Substitution
/-! # Substituting twice

Two substitutions, one after the other, are one: what the first one binds a name to has its own names
replaced by the second, and the second counts for all names that the first leaves alone
(`TypeTerm.Bindings.andThen`).  The law holds through every nesting of arguments and arrays
(`TypeTerm.substitute_substitute`), though only names without arguments are replaced, and an array takes
the name of its new element.

So it makes no difference whether the arguments of a structure are instantiated before its fields are
looked at, or its fields afterwards (`Declared.substitute_bindings`).
-/
namespace RouteBook
namespace TypeTerm

/-- Bindings and then others: what a name is bound to first has its names replaced, and any other name
is bound as it is in the others. -/
def Bindings.andThen (s r : Bindings) : Bindings :=
  s.map (fun b => (b.1, b.2.substitute r)) ++ r

variable {s r : Bindings}

theorem lookup_map_substitute (s r : Bindings) (n : String) :
    (s.map fun b => (b.1, b.2.substitute r)).lookup n =
      (s.lookup n).map fun t => t.substitute r := by
  induction s with
  | nil => rfl
  | cons b s ih =>
    rw [List.map_cons, List.lookup_cons, List.lookup_cons]
    cases n == b.1 with
    | true => rfl
    | false => exact ih

theorem lookup_andThen (s r : Bindings) (n : String) :
    (s.andThen r).lookup n = ((s.lookup n).map fun t => t.substitute r).or (r.lookup n) := by
  rw [Bindings.andThen, List.lookup_append, lookup_map_substitute]

/-- A name is replaced by what it is bound to, if it is. -/
theorem substitute_named (s : Bindings) (n : String) :
    (named n).substitute s = (s.lookup n).getD (named n) := by
  rw [named, substitute]

mutual
/-- **Two substitutions are one.** -/
theorem substitute_substitute : (t : TypeTerm) →
    (t.substitute s).substitute r = t.substitute (s.andThen r)
  | .applied name [] => by
    show ((named name).substitute s).substitute r = (named name).substitute (s.andThen r)
    rw [substitute_named s, substitute_named (s.andThen r), lookup_andThen]
    cases s.lookup name with
    | none => exact substitute_named r name
    | some t => rfl
  | .applied name (t :: ts) => by
    -- a name with arguments is not replaced, neither the first time nor the second
    rw [substitute, substitute, substitute, substitute_substitute t, substituteAll_substituteAll ts]
  | .array element => by
    rw [substitute, substitute, substitute, substitute_substitute element]

theorem substituteAll_substituteAll : (ts : List TypeTerm) →
    substituteAll r (substituteAll s ts) = substituteAll (s.andThen r) ts
  | [] => rfl
  | t :: ts => by
    rw [substituteAll, substituteAll, substituteAll, substitute_substitute t,
      substituteAll_substituteAll ts]
end

/-- Substitution goes through arguments, unless a name without arguments is replaced. -/
theorem args_substitute {t : TypeTerm} (h : t.args ≠ []) :
    (t.substitute s).args = t.args.map fun a => a.substitute s := by
  cases t with
  | applied name ts =>
    cases ts with
    | nil => exact absurd rfl h
    | cons t ts => rw [substitute, args, args, List.map_cons, substituteAll_eq_map]
  | array element => rfl

/-- A type stands inside another, or is it. -/
inductive PartOf (u : TypeTerm) : TypeTerm → Prop
  | self : PartOf u u
  | inside {t a : TypeTerm} (ha : a ∈ t.args) (h : PartOf u a) : PartOf u t

/-- **The laws of substitution.**  Substituting twice is substituting once: a name that is bound the
first time becomes what it is bound to with the second bindings put in, and any other name is bound as
the second time.  Bindings for names that do not stand in a type without arguments leave it as it is.
And wherever an array stands in the result, it has the name of its element. -/
theorem substitution_composes (t : TypeTerm) (s r : Bindings) :
    ((t.substitute s).substitute r = t.substitute (s.andThen r) ∧
      (∀ n u, s.lookup n = some u → (s.andThen r).lookup n = some (u.substitute r)) ∧
      ∀ n, s.lookup n = none → (s.andThen r).lookup n = r.lookup n) ∧
    ((∀ n, HasLeaf n t → s.lookup n = none) → t.substitute s = t) ∧
    ∀ u, PartOf u (t.substitute s) → u.isArray = true →
      ∃ element, u.args = [element] ∧ u.name = element.name := by
  refine ⟨⟨t.substitute_substitute, fun n u bound => ?_, fun n free => ?_⟩, t.substitute_eq_self,
    fun u _ harray => ?_⟩
  · rw [lookup_andThen, bound]
    rfl
  · rw [lookup_andThen, free]
    rfl
  · cases u with
    | applied => cases harray
    | array element => exact ⟨element, rfl, rfl⟩

/-- `Page<T, T[]>`. -/
def pageOf : TypeTerm := .applied "Page" [.named "T", .array (.named "T")]

/-- First `T` becomes a list of `U`, and then `U` becomes a user.  What `T` and `Page` are bound to the
second time does not matter: no `T` is left, and `Page` has arguments. -/
theorem page_of_users :
    parse? "Page<T, &[T]>" = some pageOf ∧
    (pageOf.substitute [("T", .applied "Vec" [.named "U"])]).substitute
        [("U", .named "User"), ("T", .named "u8"), ("Page", .named "u8")] =
      pageOf.substitute [("T", .applied "Vec" [.named "User"]), ("U", .named "User"),
        ("T", .named "u8"), ("Page", .named "u8")] ∧
    pageOf.substitute [("U", .named "User")] = pageOf := by
  refine ⟨by decide +kernel, ?_, ?_⟩
  · exact (substitution_composes pageOf _ _).1.1
  · refine (substitution_composes pageOf [("U", .named "User")] []).2.1 fun n leaf => ?_
    have only : n = "T" := by
      cases leaf with
      | inside ha h =>
        simp only [List.mem_cons, List.not_mem_nil, or_false] at ha
        rcases ha with rfl | rfl
        · exact h.eq_of_named
        · cases h with
          | element h => exact h.eq_of_named
    rw [only]
    rfl

end TypeTerm

namespace Declared

variable (r : RecordShape) {t : TypeTerm} (s : TypeTerm.Bindings)

/-- The parameters of a structure are bound to the instantiated arguments. -/
theorem bindings_substitute (h : t.args ≠ []) :
    bindings r (t.substitute s) = (bindings r t).map fun b => (b.1, b.2.substitute s) := by
  rw [bindings, bindings, TypeTerm.args_substitute h, List.zip_map_right, List.map_reverse]
  rfl

/-- **Fields of an instance.**  It makes no difference whether the arguments of a structure are put
into a field and the result is instantiated, or the arguments are instantiated first; then the bindings
also count for the names in the field that are no parameters. -/
theorem substitute_bindings (h : t.args ≠ []) (f : TypeTerm) :
    (f.substitute (bindings r t)).substitute s =
      f.substitute (bindings r (t.substitute s) ++ s) := by
  rw [f.substitute_substitute, bindings_substitute r s h]
  rfl

end Declared
end RouteBook
