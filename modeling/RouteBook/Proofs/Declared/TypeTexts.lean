import RouteBook.Proofs.Declared.ReadTypes
import RouteBook.Proofs.Declared.Substitution
/-! # Texts tell types apart

Two types that are built from source have the same text only if they are the same
(`TypeTerm.IsRead.text_inj`): those that are read, and those that become of them when types are
put in for names (`TypeTerm.IsBuilt`).

The text is followed from left to right.  A name ends in front of a bracket or a comma, since it holds
none of them, and then either arguments begin or there are none.  Only behind the arguments does it
show how many arrays there are around the name.  So the proof goes along one of the types, with pairs of
square brackets behind either text (`TypeTerm.IsTold`); what stands behind the brackets is the same in the
end, so that the arguments can be told apart one after the other.
-/
namespace RouteBook
namespace TypeTerm
open Source

/-! ### Types that are built from source -/

/-- **The types that are built from source**: those that are read, and what becomes of such types when
others are put in for names. -/
inductive IsBuilt : TypeTerm → Prop
  | read (e : TypeExpr) : IsBuilt (ofExpr e)
  | substitute {t : TypeTerm} {bindings : Bindings} (h : IsBuilt t)
      (hbindings : ∀ b ∈ bindings, IsBuilt b.2) : IsBuilt (t.substitute bindings)

theorem isBuilt_of_parse? {text : String} {t : TypeTerm} (h : parse? text = some t) :
    IsBuilt t := by
  obtain ⟨e, -, rfl⟩ := Option.map_eq_some_iff.mp h
  exact .read e

section Substitution

variable {bindings : Bindings} (read : ∀ b ∈ bindings, IsRead b.2)

include read

theorem isRead_substitute_named {n : String} (h : IsRead (named n)) :
    IsRead ((named n).substitute bindings) := by
  rw [named, substitute]
  cases bound : bindings.lookup n with
  | none => exact h
  | some t => exact read (n, t) (mem_of_lookup bound)

/-- What is put in for names leaves words as names. -/
theorem IsRead.substitute {t : TypeTerm} (h : IsRead t) : IsRead (t.substitute bindings) := by
  induction h with
  | unit => exact isRead_substitute_named read .unit
  | keyword h => exact isRead_substitute_named read (.keyword h)
  | @applied w hw args hargs ih =>
    cases args with
    | nil => exact isRead_substitute_named read (.applied hw hargs)
    | cons a as =>
      rw [TypeTerm.substitute]
      refine .applied hw fun b hb => ?_
      rcases List.mem_cons.mp hb with rfl | hb
      · exact ih a List.mem_cons_self
      · rw [substituteAll_eq_map] at hb
        obtain ⟨a', ha', rfl⟩ := List.mem_map.mp hb
        exact ih a' (List.mem_cons_of_mem _ ha')
  | array _ ih => exact .array ih

end Substitution

theorem IsBuilt.isRead {t : TypeTerm} (h : IsBuilt t) : IsRead t := by
  induction h with
  | read e => exact isRead_ofExpr e
  | substitute _ _ ih hb => exact ih.substitute hb

/-! ### Where names end -/

/-- A character that ends a name in the text of a type. -/
def endsName (c : Char) : Bool := c = '<' || c = '[' || c = ',' || c = '>'

theorem endsName_of_isIdentContinue {c : Char} (h : isIdentContinue c = true) : endsName c = false := by
  have apart : ∀ d : Char, isIdentContinue d = false → c ≠ d := fun d hd =>
    ne_of_isIdentContinue h hd
  simp only [endsName, apart '<' (by decide), apart '[' (by decide), apart ',' (by decide),
    apart '>' (by decide), decide_false, Bool.or_self]

theorem endsName_of_mem_plainWord (w : PlainWord) :
    ∀ c ∈ w.first :: w.others, endsName c = false := by
  intro c hc
  rcases List.mem_cons.mp hc with rfl | hc
  · exact endsName_of_isIdentContinue (isIdentContinue_of_isIdentStart w.starts)
  · exact endsName_of_isIdentContinue (List.all_eq_true.mp w.continues c hc)

/-- No name of a type that is read holds such a character. -/
theorem IsRead.endsName_eq_false {t : TypeTerm} (h : IsRead t) :
    ∀ c ∈ t.name.toList, endsName c = false := by
  rcases h.name_eq with name | ⟨w, name⟩
  · rw [name]
    simp [endsName]
  · rw [name]
    cases w with
    | plain w =>
      rw [Word.text, w.toList_text]
      exact endsName_of_mem_plainWord w
    | raw w free =>
      rw [Word.toList_text_raw]
      intro c hc
      rcases List.mem_cons.mp hc with rfl | hc
      · decide
      · rcases List.mem_cons.mp hc with rfl | hc
        · decide
        · exact endsName_of_mem_plainWord w c hc

/-- **Names end where they seem to.** -/
theorem append_inj_of_endsName {name name' rest rest' : List Char}
    (h : name ++ rest = name' ++ rest') (plain : ∀ c ∈ name, endsName c = false)
    (plain' : ∀ c ∈ name', endsName c = false) (behind : ∀ c ∈ rest.head?, endsName c = true)
    (behind' : ∀ c ∈ rest'.head?, endsName c = true) : name = name' ∧ rest = rest' := by
  have cut : ∀ {cs ds : List Char}, (∀ c ∈ cs, endsName c = false) →
      (∀ c ∈ ds.head?, endsName c = true) → (cs ++ ds).takeWhile (fun c => !endsName c) = cs := by
    intro cs ds hcs hds
    rw [List.takeWhile_append_of_pos fun c hc => by rw [hcs c hc]; rfl]
    cases ds with
    | nil => exact List.append_nil _
    | cons d ds =>
      rw [List.takeWhile_cons_of_neg (by simp [hds d rfl]), List.append_nil]
  have names := congrArg (List.takeWhile fun c => !endsName c) h
  rw [cut plain behind, cut plain' behind'] at names
  subst names
  exact ⟨rfl, List.append_cancel_left h⟩

/-! ### Arrays around a type -/

/-- A type in so many arrays. -/
def inArrays : Nat → TypeTerm → TypeTerm
  | 0, t => t
  | k + 1, t => inArrays k (.array t)

/-- So many pairs of brackets. -/
def brackets : Nat → List Char
  | 0 => []
  | k + 1 => '[' :: ']' :: brackets k

/-- What may stand behind the text of a type: a comma, an angle bracket, or nothing. -/
def EndsText (rest : List Char) : Prop := ∀ c ∈ rest.head?, c = ',' ∨ c = '>'

theorem endsText_nil : EndsText [] := fun _ h => by cases h

theorem head_brackets (k : Nat) {rest : List Char} (h : EndsText rest) :
    ∀ c ∈ (brackets k ++ rest).head?, c = '[' ∨ c = ',' ∨ c = '>' := by
  cases k with
  | zero => exact fun c hc => .inr (h c hc)
  | succ k =>
    intro c hc
    exact .inl (Option.some.inj hc).symm

theorem brackets_append_inj {k m : Nat} {rest rest' : List Char} (h : EndsText rest)
    (h' : EndsText rest') (same : brackets k ++ rest = brackets m ++ rest') :
    k = m ∧ rest = rest' := by
  induction k generalizing m with
  | zero =>
    cases m with
    | zero => exact ⟨rfl, same⟩
    | succ m =>
      -- nothing that ends a text is a square bracket
      rw [brackets, List.nil_append] at same
      rcases h '[' (by rw [same]; rfl) with he | he <;> exact absurd he (by decide)
  | succ k ih =>
    cases m with
    | zero =>
      rw [brackets.eq_1, List.nil_append] at same
      rcases h' '[' (by rw [← same]; rfl) with he | he <;> exact absurd he (by decide)
    | succ m =>
      obtain ⟨rfl, rest⟩ := ih (List.cons.inj (List.cons.inj same).2).2
      exact ⟨rfl, rest⟩

/-! ### Texts -/

/-- **A type that its text tells**: no other type has its text with pairs of brackets behind it, and
where the text and the brackets end can be seen. -/
def IsTold (t : TypeTerm) : Prop :=
  ∀ (u : TypeTerm) (k m : Nat) (rest rest' : List Char), IsRead u → EndsText rest →
    EndsText rest' →
    t.text.toList ++ (brackets k ++ rest) = u.text.toList ++ (brackets m ++ rest') →
    inArrays k t = inArrays m u ∧ rest = rest'

theorem append_inj_of_isTold {t u : TypeTerm} (h : IsTold t) (hu : IsRead u)
    {rest rest' : List Char} (hrest : EndsText rest) (hrest' : EndsText rest')
    (same : t.text.toList ++ rest = u.text.toList ++ rest') : t = u ∧ rest = rest' :=
  h u 0 0 rest rest' hu hrest hrest' same

theorem toList_text_applied (name : String) (args : List TypeTerm) :
    (TypeTerm.applied name args).text.toList = name.toList ++ (argsText args).toList := by
  rw [text, String.toList_append]

theorem toList_text_array (element : TypeTerm) (rest : List Char) :
    (TypeTerm.array element).text.toList ++ rest = element.text.toList ++ '[' :: ']' :: rest := by
  rw [text, String.toList_append, List.append_assoc]
  rfl

theorem toList_argsText_cons (a : TypeTerm) (as : List TypeTerm) (rest : List Char) :
    (argsText (a :: as)).toList ++ rest =
      '<' :: (a.text.toList ++ ((moreText as).toList ++ '>' :: rest)) := by
  simp [argsText, String.toList_append]

theorem toList_moreText_cons (a : TypeTerm) (as : List TypeTerm) (rest : List Char) :
    (moreText (a :: as)).toList ++ rest =
      ',' :: ' ' :: (a.text.toList ++ ((moreText as).toList ++ rest)) := by
  simp [moreText, String.toList_append]

/-- What stands behind an argument ends its text. -/
theorem endsText_moreText (as : List TypeTerm) (rest : List Char) :
    EndsText ((moreText as).toList ++ '>' :: rest) := by
  intro c hc
  cases as with
  | nil => exact .inr (Option.some.inj hc).symm
  | cons a as =>
    rw [toList_moreText_cons] at hc
    exact .inl (Option.some.inj hc).symm

/-- Further arguments can be told apart if each of them can. -/
theorem moreText_append_inj {as bs : List TypeTerm} (told : ∀ a ∈ as, IsTold a)
    (read : ∀ b ∈ bs, IsRead b) {rest rest' : List Char}
    (same : (moreText as).toList ++ '>' :: rest = (moreText bs).toList ++ '>' :: rest') :
    as = bs ∧ rest = rest' := by
  induction as generalizing bs with
  | nil =>
    cases bs with
    | nil => exact ⟨rfl, (List.cons.inj same).2⟩
    | cons b bs =>
      rw [toList_moreText_cons] at same
      exact absurd (List.cons.inj same).1 (by decide)
  | cons a as ih =>
    cases bs with
    | nil =>
      rw [toList_moreText_cons] at same
      exact absurd (List.cons.inj same).1 (by decide)
    | cons b bs =>
      rw [toList_moreText_cons, toList_moreText_cons] at same
      obtain ⟨rfl, behind⟩ := append_inj_of_isTold (told a List.mem_cons_self)
        (read b List.mem_cons_self) (endsText_moreText as rest) (endsText_moreText bs rest')
        (List.cons.inj (List.cons.inj same).2).2
      obtain ⟨rfl, rest⟩ := ih (fun a ha => told a (List.mem_cons_of_mem _ ha))
        (fun b hb => read b (List.mem_cons_of_mem _ hb)) behind
      exact ⟨rfl, rest⟩

/-- So can all arguments of a type, unless an angle bracket stands behind them. -/
theorem argsText_append_inj {as bs : List TypeTerm} (told : ∀ a ∈ as, IsTold a)
    (read : ∀ b ∈ bs, IsRead b) {rest rest' : List Char} (closed : rest.head? ≠ some '<')
    (closed' : rest'.head? ≠ some '<')
    (same : (argsText as).toList ++ rest = (argsText bs).toList ++ rest') :
    as = bs ∧ rest = rest' := by
  cases as with
  | nil =>
    cases bs with
    | nil => exact ⟨rfl, same⟩
    | cons b bs =>
      rw [toList_argsText_cons] at same
      exact absurd (congrArg List.head? same) closed
  | cons a as =>
    cases bs with
    | nil =>
      rw [toList_argsText_cons] at same
      exact absurd (congrArg List.head? same.symm) closed'
    | cons b bs =>
      -- the first argument might as well stand behind a comma
      rw [toList_argsText_cons, toList_argsText_cons] at same
      refine moreText_append_inj told read ?_
      rw [toList_moreText_cons, toList_moreText_cons, (List.cons.inj same).2]

/-- What stands behind a name ends it. -/
theorem endsName_head_argsText (as : List TypeTerm) (k : Nat) {rest : List Char}
    (h : EndsText rest) :
    ∀ c ∈ ((argsText as).toList ++ (brackets k ++ rest)).head?, endsName c = true := by
  intro c hc
  cases as with
  | nil =>
    rcases head_brackets k h c hc with rfl | rfl | rfl <;> decide
  | cons a as =>
    rw [toList_argsText_cons] at hc
    obtain rfl := Option.some.inj hc
    decide

/-- A type that is no array is told if its arguments are.  The arrays of the other type are brackets
behind its text. -/
theorem isTold_applied {name : String} {args : List TypeTerm}
    (plain : ∀ c ∈ name.toList, endsName c = false) (told : ∀ a ∈ args, IsTold a) :
    IsTold (.applied name args)
  | .array element, k, m, rest, rest', hu, h, h', same => by
    cases hu with
    | array hu =>
      rw [toList_text_array] at same
      exact isTold_applied plain told element k (m + 1) rest rest' hu h h' same
  | .applied name' args', k, m, rest, rest', hu, h, h', same => by
    have closed : ∀ {n : Nat} {cs : List Char}, EndsText cs →
        (brackets n ++ cs).head? ≠ some '<' := by
      intro n cs hcs first
      rcases head_brackets n hcs '<' first with he | he | he <;> exact absurd he (by decide)
    rw [toList_text_applied, toList_text_applied, List.append_assoc, List.append_assoc] at same
    obtain ⟨names, behind⟩ := append_inj_of_endsName same plain hu.endsName_eq_false
      (endsName_head_argsText args k h) (endsName_head_argsText args' m h')
    obtain ⟨rfl, arrays⟩ := argsText_append_inj told hu.args (closed h) (closed h') behind
    obtain ⟨rfl, rests⟩ := brackets_append_inj h h' arrays
    obtain rfl := String.toList_injective names
    exact ⟨rfl, rests⟩

/-- **Types that are read are told by their texts.** -/
theorem IsRead.isTold {t : TypeTerm} (h : IsRead t) : IsTold t := by
  have none : ∀ a ∈ ([] : List TypeTerm), IsTold a := fun _ ha => absurd ha List.not_mem_nil
  induction h with
  | unit => exact isTold_applied IsRead.unit.endsName_eq_false none
  | keyword h => exact isTold_applied (IsRead.keyword h).endsName_eq_false none
  | applied hw hargs ih => exact isTold_applied (IsRead.applied hw hargs).endsName_eq_false ih
  | array _ ih =>
    intro u k m rest rest' hu h h' same
    rw [toList_text_array] at same
    exact ih u (k + 1) m rest rest' hu h h' same

/-- **The text of a type that is read tells the type.** -/
theorem IsRead.text_inj {t u : TypeTerm} (ht : IsRead t) (hu : IsRead u) :
    t.text = u.text ↔ t = u := by
  refine ⟨fun same => ?_, fun same => by rw [same]⟩
  have chars : t.text.toList ++ [] = u.text.toList ++ [] := by rw [same]
  exact (append_inj_of_isTold ht.isTold hu endsText_nil endsText_nil chars).1

end TypeTerm
end RouteBook
