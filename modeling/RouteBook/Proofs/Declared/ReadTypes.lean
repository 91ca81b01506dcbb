import RouteBook.Proofs.Declared.Index
import RouteBook.Proofs.Source.Parsing
import RouteBook.Proofs.Source.Scanning
/-! # Types that are read from source

The names of a type that has been read are words of the source (`TypeTerm.IsRead`).  So its text can
be read again: a type without arrays whose names may stand at the start of a path is what its text
is read as (`TypeTerm.parse?_text`).

The proof goes along the type.  For every part it gives the tokens that the part is scanned into,
and the tree that these are parsed into, whatever stands behind (`TypeTerm.IsWritten`).
-/
namespace RouteBook
namespace TypeTerm
open Source

/-! ### The types that are read -/

/-- **The types that are read from source**: every name is a word that can name a segment of a path,
or a keyword that is one by itself. -/
inductive IsRead : TypeTerm → Prop
  | unit : IsRead unit
  | keyword {k : String} (h : k ∈ pathKeywords) : IsRead (named k)
  | applied {w : Word} (h : w.isName = true) {args : List TypeTerm}
      (hargs : ∀ a ∈ args, IsRead a) : IsRead (.applied w.text args)
  | array {element : TypeTerm} (h : IsRead element) : IsRead (.array element)

theorem isRead_unknown : IsRead unknown := by
  let w : Word := .plain ⟨'U', ['n', 'k', 'n', 'o', 'w', 'n'], rfl, rfl⟩
  have name : w.text = "Unknown" := by decide
  have h : IsRead (.applied w.text []) :=
    .applied (by decide) fun _ h => absurd h List.not_mem_nil
  rw [name] at h
  exact h

mutual
/-- What a type is read as is a type that is read; so for its parts. -/
theorem isRead_ofExpr : (e : TypeExpr) → IsRead (ofExpr e)
  | .path _ segments => isRead_ofPath segments
  | .reference target => isRead_ofExpr target
  | .grouped inner => isRead_ofExpr inner
  | .slice element => .array (isRead_ofExpr element)
  | .array element => .array (isRead_ofExpr element)
  | .tuple [] => .unit
  | .tuple (_ :: _) => isRead_unknown
  | .bounded bounds => isRead_ofBounds bounds
  | .pointer _ => isRead_unknown
  | .function => isRead_unknown
  | .never => isRead_unknown
  | .inferred => isRead_unknown
  | .macroCall => isRead_unknown
  | .unread => isRead_unknown

theorem isRead_ofPath : (segments : List Segment) → IsRead (ofPath segments)
  | [] => isRead_unknown
  | [s] => isRead_ofSegment s
  | _ :: s :: ss => isRead_ofPath (s :: ss)

theorem isRead_ofSegment : (s : Segment) → IsRead (ofSegment s)
  | .keyword _ h => .keyword h
  | .named _ h arguments => .applied h (isRead_ofArguments arguments)

theorem isRead_ofArguments : (arguments : Arguments) → ∀ t ∈ ofArguments arguments, IsRead t
  | .angle types => isRead_ofExprs types
  | .absent => fun _ h => absurd h List.not_mem_nil
  | .paren => fun _ h => absurd h List.not_mem_nil

theorem isRead_ofExprs : (types : List TypeExpr) → ∀ t ∈ ofExprs types, IsRead t
  | [] => fun _ h => absurd h List.not_mem_nil
  | e :: es => by
    intro t ht
    rw [ofExprs] at ht
    rcases List.mem_cons.mp ht with rfl | ht
    · exact isRead_ofExpr e
    · exact isRead_ofExprs es t ht

theorem isRead_ofBounds : (bounds : List Bound) → IsRead (ofBounds bounds)
  | [] => isRead_unknown
  | .trait segments :: _ => isRead_ofPath segments
  | .lifetime :: bs => isRead_ofBounds bs
  | .unread :: bs => isRead_ofBounds bs
end

theorem isRead_of_parse? {text : String} {t : TypeTerm} (h : parse? text = some t) : IsRead t := by
  obtain ⟨e, -, rfl⟩ := Option.map_eq_some_iff.mp h
  exact isRead_ofExpr e

/-- The arguments of a type that is read are read, too. -/
theorem IsRead.args {t : TypeTerm} (h : IsRead t) : ∀ a ∈ t.args, IsRead a := by
  cases h with
  | unit => exact fun _ ha => absurd ha List.not_mem_nil
  | keyword => exact fun _ ha => absurd ha List.not_mem_nil
  | applied _ hargs => exact hargs
  | array h =>
    intro a ha
    rw [List.mem_singleton.mp ha]
    exact h

/-! ### Declared types -/

/-- The types that a shape is made of. -/
def shapeTypes : Shape → List TypeTerm
  | .record r => r.fields.map FieldShape.type
  | .choice _ _ => []
  | .synonym target => [target]

theorem isRead_ofFields {name : String} {generics : List String} (fields : Fields) :
    ∀ t ∈ shapeTypes (Shape.ofFields name generics fields), IsRead t := by
  cases fields with
  | unit => exact fun _ h => absurd h List.not_mem_nil
  | named fields =>
    intro t ht
    obtain ⟨f, hf, rfl⟩ := List.mem_map.mp ht
    obtain ⟨field, -, rfl⟩ := List.mem_map.mp hf
    exact isRead_ofExpr field.type
  | unnamed types =>
    cases types with
    | nil => exact fun _ h => absurd h List.not_mem_nil
    | cons type types =>
      cases types with
      | nil =>
        intro t ht
        rw [List.mem_singleton.mp ht]
        exact isRead_ofExpr type
      | cons _ _ => exact fun _ h => absurd h List.not_mem_nil

mutual
/-- The shapes that an item declares are made of types that are read. -/
theorem isRead_of_mem_ofItem {decl : String × Shape} :
    (item : Item) → decl ∈ Shape.ofItem item → ∀ t ∈ shapeTypes decl.2, IsRead t
  | .structDecl _ _ fields _, h => by
    rw [List.mem_singleton.mp h]
    exact isRead_ofFields fields
  | .enumDecl _ _ _, h => by
    rw [List.mem_singleton.mp h]
    exact fun _ h => absurd h List.not_mem_nil
  | .aliasDecl _ type _, h => by
    rw [List.mem_singleton.mp h]
    intro t ht
    rw [List.mem_singleton.mp ht]
    exact isRead_ofExpr type
  | .implBlock _ _ _ nested, h => isRead_of_mem_ofItems nested h
  | .traitBlock _ _ _ nested, h => isRead_of_mem_ofItems nested h
  | .other nested, h => isRead_of_mem_ofItems nested h

theorem isRead_of_mem_ofItems {decl : String × Shape} :
    (items : List Item) → decl ∈ Shape.ofItems items → ∀ t ∈ shapeTypes decl.2, IsRead t
  | [], h => absurd h List.not_mem_nil
  | item :: items, h => by
    rcases List.mem_append.mp h with h | h
    · exact isRead_of_mem_ofItem item h
    · exact isRead_of_mem_ofItems items h
end

/-- So are the shapes in the index of some files. -/
theorem isRead_of_find? {files : List (List Item)} {name : String} {shape : Shape}
    (h : (TypeIndex.ofFiles files).find? name = some shape) : ∀ t ∈ shapeTypes shape, IsRead t := by
  rw [TypeIndex.find?_ofFiles] at h
  obtain ⟨items, -, hitems⟩ := List.mem_flatMap.mp (mem_of_lookup h)
  exact isRead_of_mem_ofItems items hitems

theorem isRead_of_synonym {files : List (List Item)} {name : String} {target : TypeTerm}
    (h : (TypeIndex.ofFiles files).find? name = some (.synonym target)) : IsRead target :=
  isRead_of_find? h target List.mem_cons_self

/-! ### Types as texts -/

/-- A type without arrays. -/
inductive IsArrayFree : TypeTerm → Prop
  | applied {name : String} {args : List TypeTerm} (hargs : ∀ a ∈ args, IsArrayFree a) :
      IsArrayFree (.applied name args)

theorem isArrayFree_applied_iff {name : String} {args : List TypeTerm} :
    IsArrayFree (.applied name args) ↔ ∀ a ∈ args, IsArrayFree a :=
  ⟨fun | .applied hargs => hargs, .applied⟩

theorem IsArrayFree.isArray {t : TypeTerm} (h : IsArrayFree t) : t.isArray = false := by
  cases h
  rfl

/-- A type that has a name somewhere. -/
inductive Mentions (n : String) : TypeTerm → Prop
  | here {args : List TypeTerm} : Mentions n (.applied n args)
  | inside {name : String} {args : List TypeTerm} {a : TypeTerm} (ha : a ∈ args)
      (h : Mentions n a) : Mentions n (.applied name args)
  | element {t : TypeTerm} (h : Mentions n t) : Mentions n (.array t)

theorem mentions_applied_iff {n name : String} {args : List TypeTerm} :
    Mentions n (.applied name args) ↔ name = n ∨ ∃ a ∈ args, Mentions n a := by
  constructor
  · intro h
    cases h with
    | here => exact .inl rfl
    | inside ha h => exact .inr ⟨_, ha, h⟩
  · rintro (rfl | ⟨a, ha, h⟩)
    · exact .here
    · exact .inside ha h

theorem mentions_array_iff {n : String} {t : TypeTerm} : Mentions n (.array t) ↔ Mentions n t :=
  ⟨fun | .element h => h, .element⟩

/-- **A type as a text, as tokens and as a tree.**  The text of `t` is scanned into `tokens` where
`rest` stands behind it, these are parsed into `e` wherever a type may end behind them, and `e` is
read as `t`. -/
structure IsWritten (t : TypeTerm) (rest : List Char) (tokens : List Token) (e : TypeExpr) :
    Prop where
  scanned : Scan.Reads t.text.toList tokens rest
  starts : Parser.StartsType tokens
  argument : Parser.IsArgument e
  parsed : ∀ fuel after, Token.sizes tokens ≤ fuel → Parser.EndsType after →
    Parser.Yields (grammarAt (fuel + 1)).type (tokens ++ after) e after
  meaning : ofExpr e = t

/-- A type whose text can be read back wherever a name may end behind it. -/
def ReadsBack (t : TypeTerm) : Prop :=
  ∀ rest, Scan.EndsName rest → ∃ tokens e, IsWritten t rest tokens e

theorem readsBack_unit : ReadsBack unit := by
  intro rest _
  refine ⟨[.group .paren []], .tuple [], ?_, .inr ⟨[], rfl⟩, .inl rfl, ?_, rfl⟩
  · exact Scan.reads_unit rest
  · intro fuel after _ _
    exact Parser.yields_unit after

/-- The keywords that are a segment of a path are words. -/
theorem exists_word_of_mem_pathKeywords {k : String} (h : k ∈ pathKeywords) :
    ∃ w : Word, w.text = k := by
  simp only [pathKeywords, List.mem_cons, List.not_mem_nil, or_false] at h
  rcases h with rfl | rfl | rfl | rfl
  · exact ⟨.plain ⟨'s', ['u', 'p', 'e', 'r'], rfl, rfl⟩, by decide⟩
  · exact ⟨.plain ⟨'s', ['e', 'l', 'f'], rfl, rfl⟩, by decide⟩
  · exact ⟨.plain ⟨'c', ['r', 'a', 't', 'e'], rfl, rfl⟩, by decide⟩
  · exact ⟨.plain ⟨'t', ['r', 'y'], rfl, rfl⟩, by decide⟩

theorem text_named (name : String) : (named name).text = name := String.append_empty

/-- A name without arguments. -/
theorem readsBack_of_segment {w : Word} {s : Segment} (starts : Parser.StartsPath w)
    (called : s.isCalled = false) (meaning : ofSegment s = named w.text)
    (hseg : ∀ (g : Grammar) (after : List Token), Parser.EndsType after →
      Parser.Yields (Parser.segment g (Parser.bound g) false) (.ident w :: after) s after) :
    ReadsBack (named w.text) := by
  intro rest hrest
  refine ⟨[.ident w], .path false [s], ?_, .inl ⟨w, [], rfl, starts⟩, .inr ⟨s, rfl, called⟩, ?_,
    meaning⟩
  · rw [text_named]
    exact Scan.reads_word w hrest
  · intro fuel after _ ends
    exact Parser.yields_path starts (hseg _ after ends) ends

theorem readsBack_keyword {k : String} (h : k ∈ pathKeywords) (other : k ≠ "try") :
    ReadsBack (named k) := by
  obtain ⟨w, rfl⟩ := exists_word_of_mem_pathKeywords h
  refine readsBack_of_segment (s := .keyword w.text h) (.inr ?_) rfl rfl ?_
  · simp only [pathKeywords, List.mem_cons, List.not_mem_nil, or_false] at h ⊢
    rcases h with h | h | h | h
    · exact .inl h
    · exact .inr (.inl h)
    · exact .inr (.inr h)
    · exact absurd h other
  · exact fun g after _ => Parser.yields_keyword h after

theorem readsBack_name {w : Word} (h : w.isName = true) : ReadsBack (named w.text) :=
  readsBack_of_segment (s := .named w h .absent) (.inl h) rfl rfl
    fun _ _ ends => Parser.yields_name h ends

/-- **Arguments between angle brackets.**  Behind the opening bracket, the text of the arguments with
the closing bracket is scanned into tokens that are parsed as a list. -/
theorem exists_arguments {a : TypeTerm} {as : List TypeTerm} (ha : ReadsBack a)
    (has : ∀ b ∈ as, ReadsBack b) (rest : List Char) :
    ∃ tokens types joint,
      Scan.Reads (a.text.toList ++ ((moreText as).toList ++ ['>']))
        (tokens ++ [.punct '>' joint]) rest ∧
      Parser.StartsType tokens ∧ ofExprs types = a :: as ∧
      ∀ fuel after bound, Token.sizes tokens ≤ fuel →
        Parser.Separated (Parser.op ">") "," (Parser.genericArgument (grammarAt (fuel + 1)) bound)
          (tokens ++ .punct '>' joint :: after) (types.map some) (.punct '>' joint :: after) := by
  induction as generalizing a with
  | nil =>
    have close : Scan.EndsName ('>' :: rest) := by
      intro c hc
      obtain rfl := Option.some.inj hc
      decide
    obtain ⟨tokens, e, h⟩ := ha ('>' :: rest) close
    refine ⟨tokens, [e], (Scan.punctChar? rest).isSome, ?_, h.starts, ?_, ?_⟩
    · exact h.scanned.append (Scan.reads_sign (by decide) rest)
    · rw [ofExprs, ofExprs, h.meaning]
    · intro fuel after bound enough
      have ends : Parser.EndsType (.punct '>' (Scan.punctChar? rest).isSome :: after) := by
        intro token ht
        exact ⟨_, .inr (Option.some.inj ht).symm⟩
      refine .last (Parser.StartsType.not_close (h.starts.append _)) ?_ ?_ ?_
      · exact Parser.yields_genericArgument (h.starts.append _) h.argument
          (h.parsed fuel _ enough ends) ends
      · simp [Parser.op, Parser.beginsWith]
      · rw [List.length_append]
        exact Nat.lt_add_of_pos_left (h.starts.length_pos)
  | cons b bs ih =>
    obtain ⟨tokens₂, types, joint, scanned, starts, meaning, parsed⟩ :=
      ih (has b List.mem_cons_self) fun c hc => has c (List.mem_cons_of_mem _ hc)
    let behind := b.text.toList ++ ((moreText bs).toList ++ ['>'])
    have comma : Scan.EndsName ([','] ++ ([' '] ++ behind) ++ rest) := by
      intro c hc
      obtain rfl := Option.some.inj hc
      decide
    obtain ⟨tokens₁, e, h⟩ := ha _ comma
    let sign : Token := .punct ',' (Scan.punctChar? ([' '] ++ behind ++ rest)).isSome
    refine ⟨tokens₁ ++ ([sign] ++ tokens₂), e :: types, joint, ?_, h.starts.append _,
      ?_, ?_⟩
    · have chars : a.text.toList ++ ((moreText (b :: bs)).toList ++ ['>']) =
          a.text.toList ++ ([','] ++ ([' '] ++ behind)) := by
        simp [moreText, behind, String.toList_append]
      have all := h.scanned.append ((Scan.reads_sign (by decide) ([' '] ++ behind ++ rest)).append
        ((Scan.reads_space (behind ++ rest)).append scanned))
      rw [chars, List.append_assoc, List.append_assoc]
      exact all
    · rw [ofExprs, h.meaning, meaning]
    · intro fuel after bound enough
      rw [Token.sizes_append, Token.sizes_append] at enough
      have ends : Parser.EndsType (sign :: (tokens₂ ++ .punct '>' joint :: after)) := by
        intro token ht
        exact ⟨_, .inl (Option.some.inj ht).symm⟩
      have whole : tokens₁ ++ ([sign] ++ tokens₂) ++ .punct '>' joint :: after =
          tokens₁ ++ (sign :: (tokens₂ ++ .punct '>' joint :: after)) := by
        simp
      rw [whole]
      have starts₁ := h.starts.append (sign :: (tokens₂ ++ .punct '>' joint :: after))
      have element : Parser.Yields (Parser.genericArgument (grammarAt (fuel + 1)) bound)
          (tokens₁ ++ (sign :: (tokens₂ ++ .punct '>' joint :: after))) (some e)
          (sign :: (tokens₂ ++ .punct '>' joint :: after)) :=
        Parser.yields_genericArgument starts₁ h.argument (h.parsed fuel _ (by omega) ends) ends
      refine .cons (starts₁.not_close) element ?_ ?_ ?_
        (parsed fuel after bound (by omega))
      · exact Parser.op_of_ne (c := '>') rfl (by decide) _ _
      · simp [Parser.op, Parser.beginsWith, sign]
      · rw [List.length_append]
        exact Nat.lt_add_of_pos_left (h.starts.length_pos)

/-- A name with arguments. -/
theorem readsBack_applied {w : Word} (hw : w.isName = true) {a : TypeTerm} {as : List TypeTerm}
    (ha : ReadsBack a) (has : ∀ b ∈ as, ReadsBack b) : ReadsBack (.applied w.text (a :: as)) := by
  intro rest hrest
  obtain ⟨tokens, types, joint, scanned, starts, meaning, parsed⟩ := exists_arguments ha has rest
  let behind := a.text.toList ++ ((moreText as).toList ++ ['>'])
  have opening : Scan.EndsName (['<'] ++ behind ++ rest) := by
    intro c hc
    obtain rfl := Option.some.inj hc
    decide
  let sign : Token := .punct '<' (Scan.punctChar? (behind ++ rest)).isSome
  refine ⟨[.ident w] ++ ([sign] ++ (tokens ++ [.punct '>' joint])),
    .path false [.named w hw (.angle types)], ?_, .inl ⟨w, _, rfl, .inl hw⟩,
    .inr ⟨_, rfl, rfl⟩, ?_, ?_⟩
  · have chars : (TypeTerm.applied w.text (a :: as)).text.toList =
        w.text.toList ++ (['<'] ++ behind) := by
      simp [text, argsText, behind, String.toList_append]
    rw [chars]
    exact (Scan.reads_word w opening).append
      ((Scan.reads_sign (by decide) (behind ++ rest)).append scanned)
  · intro fuel after enough ends
    simp only [Token.sizes_append, Token.sizes, Token.size] at enough
    obtain ⟨fuel, rfl⟩ : ∃ less, fuel = less + 1 := ⟨fuel - 1, by omega⟩
    have whole : [.ident w] ++ ([sign] ++ (tokens ++ [.punct '>' joint])) ++ after =
        .ident w :: sign :: (tokens ++ .punct '>' joint :: after) := by
      simp
    rw [whole]
    refine Parser.yields_path (.inl hw) ?_ ends
    refine Parser.yields_called hw (starts.append _) ?_
    exact Parser.yields_angle (parsed fuel after _ (by omega))
  · show TypeTerm.applied w.text (ofExprs types) = _
    rw [meaning]

/-- **Types without arrays can be read back**, if the keyword `try` is none of their names. -/
theorem IsRead.readsBack {t : TypeTerm} (h : IsRead t) (arrayFree : IsArrayFree t)
    (tryFree : ¬ Mentions "try" t) : ReadsBack t := by
  induction h with
  | unit => exact readsBack_unit
  | keyword h => exact readsBack_keyword h fun he => tryFree (by rw [he]; exact .here)
  | @applied w hw args hargs ih =>
    have inner : ∀ b ∈ args, ReadsBack b := by
      intro b hb
      cases arrayFree with
      | applied free => exact ih b hb (free b hb) fun h => tryFree (.inside hb h)
    cases args with
    | nil => exact readsBack_name hw
    | cons a as =>
      exact readsBack_applied hw (inner a List.mem_cons_self)
        fun b hb => inner b (List.mem_cons_of_mem _ hb)
  | array => cases arrayFree

/-! ### The ends of a text -/

/-- The name of a type that is read is a pair of parentheses or a word. -/
theorem IsRead.name_eq {t : TypeTerm} (h : IsRead t) :
    t.name = "()" ∨ ∃ w : Word, t.name = w.text := by
  induction h with
  | unit => exact .inl rfl
  | keyword h =>
    obtain ⟨w, rfl⟩ := exists_word_of_mem_pathKeywords h
    exact .inr ⟨w, rfl⟩
  | @applied w => exact .inr ⟨w, rfl⟩
  | array _ ih => exact ih

/-- The text of a type begins with a parenthesis or with a character that starts a word. -/
theorem IsRead.head_text {t : TypeTerm} (h : IsRead t) :
    ∀ c ∈ t.text.toList.head?, c = '(' ∨ isIdentStart c = true := by
  intro c hc
  obtain ⟨rest, htext, hrest⟩ := text_eq_append t
  rw [htext, List.head?_append] at hc
  rcases h.name_eq with name | ⟨w, name⟩
  · rw [name] at hc
    exact .inl (Option.some.inj hc).symm
  · obtain ⟨d, ds, hw, start⟩ := w.exists_text_eq_cons
    rw [name, hw] at hc
    obtain rfl := Option.some.inj hc
    exact .inr start

/-- The text of a type that is no array ends with a bracket that is no square one, or with a
character of a word. -/
theorem IsRead.getLast_text {t : TypeTerm} (h : IsRead t) (harray : t.isArray = false) :
    ∀ c ∈ t.text.toList.getLast?, c = ')' ∨ c = '>' ∨ isIdentContinue c = true := by
  have word : ∀ w : Word, ∀ c ∈ (named w.text).text.toList.getLast?,
      c = ')' ∨ c = '>' ∨ isIdentContinue c = true := by
    intro w c hc
    rw [text_named] at hc
    exact .inr (.inr (w.getLast_text c hc))
  intro c hc
  cases h with
  | unit => exact .inl (Option.some.inj hc).symm
  | keyword h =>
    obtain ⟨w, rfl⟩ := exists_word_of_mem_pathKeywords h
    exact word w c hc
  | @applied w hw args hargs =>
    cases args with
    | nil => exact word w c hc
    | cons a as =>
      have chars : (TypeTerm.applied w.text (a :: as)).text.toList =
          (w.text ++ "<" ++ a.text ++ moreText as).toList ++ ['>'] := by
        simp [text, argsText, String.toList_append]
      rw [chars, List.getLast?_concat] at hc
      exact .inr (.inl (Option.some.inj hc).symm)
  | array => cases harray

/-- **The text of a type can be read back**: a type without arrays, none of whose names is the
keyword `try`, is what its text is read as. -/
theorem IsRead.parse?_text {t : TypeTerm} (h : IsRead t) (arrayFree : IsArrayFree t)
    (tryFree : ¬ Mentions "try" t) : parse? t.text = some t := by
  obtain ⟨tokens, e, written⟩ := h.readsBack arrayFree tryFree [] fun c hc => by cases hc
  have unmarked : t.text.toList.head? ≠ some (Char.ofNat 0xFEFF) := by
    intro first
    rcases h.head_text _ first with he | he
    · exact absurd he (by decide)
    · exact absurd he (by decide +kernel)
  have scanned := written.scanned.scan? unmarked
  have parsed : (grammarFor tokens).type ⟨tokens, []⟩ = some (e, ⟨[], []⟩) := by
    have run := written.parsed (4 * Token.sizes tokens + 15) [] (by omega) (fun _ h => by cases h) []
    rw [List.append_nil] at run
    exact run
  have read : readAll? (fun g => g.type) tokens = some (e, []) := by
    simp only [readAll?, parsed, List.reverse_nil]
  have expr : TypeExpr.parse? t.text = some e := by
    unfold TypeExpr.parse?
    rw [scanned]
    show (readAll? (fun g => g.type) tokens).bind _ = _
    rw [read]
    rfl
  rw [parse?, expr, Option.map_some, written.meaning]

end TypeTerm
end RouteBook
