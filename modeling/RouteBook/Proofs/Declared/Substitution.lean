import RouteBook.Declared.TypeTerm
import RouteBook.Json.Basic
/-! # Instances of types

What a type becomes when arguments are put in for parameters (`TypeTerm.IsInstance`): a name without
arguments that is a parameter becomes the argument at the same place, and everything else stays as it
is.  Substitution gives such an instance (`TypeTerm.isInstance_substitute`), and it leaves a type as
it is in which no bound name stands without arguments (`TypeTerm.substitute_eq_self`).
-/
namespace RouteBook
namespace TypeTerm

/-- A name stands in a type without arguments. -/
inductive HasLeaf (n : String) : TypeTerm → Prop
  | here : HasLeaf n (named n)
  | inside {name : String} {args : List TypeTerm} {a : TypeTerm} (ha : a ∈ args)
      (h : HasLeaf n a) : HasLeaf n (.applied name args)
  | element {t : TypeTerm} (h : HasLeaf n t) : HasLeaf n (.array t)

theorem HasLeaf.eq_of_named {n m : String} (h : HasLeaf n (named m)) : n = m := by
  cases h with
  | here => rfl
  | inside ha _ => exact absurd ha List.not_mem_nil

/-- **An instance of a type**: the i-th argument stands for the i-th parameter. -/
inductive IsInstance (params : List String) (args : List TypeTerm) : TypeTerm → TypeTerm → Prop
  | param {p : String} {a : TypeTerm} (h : (p, a) ∈ params.zip args) :
      IsInstance params args (named p) a
  | free {n : String} (h : ∀ a, (n, a) ∉ params.zip args) :
      IsInstance params args (named n) (named n)
  | applied {n : String} {t u : TypeTerm} {ts us : List TypeTerm} (first : IsInstance params args t u)
      (length : ts.length = us.length) (others : ∀ p ∈ ts.zip us, IsInstance params args p.1 p.2) :
      IsInstance params args (.applied n (t :: ts)) (.applied n (u :: us))
  | array {t u : TypeTerm} (h : IsInstance params args t u) :
      IsInstance params args (.array t) (.array u)

variable {bindings : Bindings}

theorem substituteAll_eq_map (ts : List TypeTerm) :
    substituteAll bindings ts = ts.map fun t => t.substitute bindings := by
  induction ts with
  | nil => rfl
  | cons t ts ih => rw [substituteAll, ih, List.map_cons]

/-! ### Names that are not bound -/

mutual
/-- A type in which no bound name stands without arguments stays as it is. -/
theorem substitute_eq_self : (t : TypeTerm) →
    (∀ n, HasLeaf n t → bindings.lookup n = none) → t.substitute bindings = t
  | .applied name [], h => by
    rw [substitute, h name .here]
    rfl
  | .applied name (t :: ts), h => by
    have first := substitute_eq_self t fun n hn => h n (.inside List.mem_cons_self hn)
    have others := substituteAll_eq_self ts fun n a ha hn =>
      h n (.inside (List.mem_cons_of_mem _ ha) hn)
    rw [substitute, first, others]
  | .array element, h => by
    rw [substitute, substitute_eq_self element fun n hn => h n (.element hn)]

theorem substituteAll_eq_self : (ts : List TypeTerm) →
    (∀ n, ∀ a ∈ ts, HasLeaf n a → bindings.lookup n = none) → substituteAll bindings ts = ts
  | [], _ => rfl
  | t :: ts, h => by
    have first := substitute_eq_self t fun n hn => h n t List.mem_cons_self hn
    have others := substituteAll_eq_self ts fun n a ha hn => h n a (List.mem_cons_of_mem _ ha) hn
    rw [substituteAll, first, others]
end

@[simp] theorem substitute_nil (t : TypeTerm) : t.substitute [] = t :=
  t.substitute_eq_self fun _ _ => List.lookup_nil

/-! ### Arguments for parameters -/

variable {params : List String} {args : List TypeTerm}

/-- What is bound to a name is the argument for it. -/
theorem mem_zip_of_lookup {n : String} {a : TypeTerm}
    (h : (params.zip args).reverse.lookup n = some a) : (n, a) ∈ params.zip args :=
  List.mem_reverse.mp (mem_of_lookup h)

theorem not_mem_zip_of_lookup {n : String} (h : (params.zip args).reverse.lookup n = none)
    (a : TypeTerm) : (n, a) ∉ params.zip args := by
  intro hmem
  have apart := List.lookup_eq_none_iff.mp h (n, a) (List.mem_reverse.mpr hmem)
  exact absurd rfl (bne_iff_ne.mp apart)

mutual
/-- **Substitution gives an instance.** -/
theorem isInstance_substitute : (t : TypeTerm) →
    IsInstance params args t (t.substitute (params.zip args).reverse)
  | .applied name [] => by
    rw [substitute]
    cases h : (params.zip args).reverse.lookup name with
    | none => exact .free (not_mem_zip_of_lookup h)
    | some a => exact .param (mem_zip_of_lookup h)
  | .applied name (t :: ts) => by
    rw [substitute]
    refine .applied (isInstance_substitute t) ?_ (isInstance_substituteAll ts)
    rw [substituteAll_eq_map, List.length_map]
  | .array element => .array (isInstance_substitute element)

theorem isInstance_substituteAll : (ts : List TypeTerm) →
    ∀ p ∈ ts.zip (substituteAll (params.zip args).reverse ts), IsInstance params args p.1 p.2
  | [] => fun _ h => absurd h List.not_mem_nil
  | t :: ts => by
    intro p hp
    rw [substituteAll, List.zip_cons_cons] at hp
    rcases List.mem_cons.mp hp with rfl | hp
    · exact isInstance_substitute t
    · exact isInstance_substituteAll ts p hp
end

/-- A type without parameters is the only instance of itself. -/
theorem substitute_eq_self_of_apart {t : TypeTerm} (h : ∀ p ∈ params, ¬ HasLeaf p t) :
    t.substitute (params.zip args).reverse = t := by
  refine t.substitute_eq_self fun n hn => ?_
  rw [List.lookup_eq_none_iff]
  rintro ⟨p, a⟩ hmem
  refine bne_iff_ne.mpr ?_
  rintro rfl
  exact h n (List.of_mem_zip (List.mem_reverse.mp hmem)).1 hn

end TypeTerm
end RouteBook
