import RouteBook.Source.Lexer
import RouteBook.Text.Blank
/-! # Scanning names

What the scanner makes of the texts that types are written with: names, angle brackets, commas and
the empty pair of parentheses.  `Scan.Reads` says that a text is read as some tokens where it
stands, whatever has been read before it; such texts can be put one behind the other
(`Scan.Reads.append`).

A name is read as one word (`Scan.reads_word`) if no character follows that could continue it.  The
scanner tries strings and numbers first, and several of them begin with a letter; they are told
apart from names by the quotes and number signs that no name holds.
-/
namespace RouteBook
namespace Source

/-! ### Characters -/

/-- What does not hold of some code points does not hold of their characters. -/
theorem eq_false_of_points {p : Char → Bool} (points : List Nat)
    (h : points.all (fun n => !p (Char.ofNat n)) = true) {c : Char} (hc : c.toNat ∈ points) :
    p c = false := by
  have here := List.all_eq_true.mp h _ hc
  rw [Char.ofNat_toNat, Bool.not_eq_true'] at here
  exact here

/-- The code points of the white space of source text. -/
def spacePoints : List Nat :=
  List.range' 9 5 ++ List.range' 0x2000 11 ++
    [0x20, 0x85, 0xA0, 0x1680, 0x200E, 0x200F, 0x2028, 0x2029, 0x202F, 0x205F, 0x3000]

/-- White space does not continue a name. -/
theorem isIdentContinue_of_isSpace {c : Char} (h : Scan.isSpace c = true) :
    isIdentContinue c = false := by
  refine eq_false_of_points spacePoints (by decide +kernel) ?_
  simp only [Scan.isSpace, Bool.or_eq_true, Bool.and_eq_true, decide_eq_true_eq,
    beq_iff_eq] at h
  simp only [spacePoints, List.mem_append, List.mem_range'_1, List.mem_cons, List.not_mem_nil,
    or_false]
  omega

/-- Nor do blank characters. -/
theorem isIdentContinue_of_isBlank {c : Char} (h : Text.isBlank c = true) :
    isIdentContinue c = false := by
  apply isIdentContinue_of_isSpace
  simp only [Text.isBlank, Scan.isSpace, Bool.or_eq_true, Bool.and_eq_true, decide_eq_true_eq,
    beq_iff_eq] at h ⊢
  omega

theorem isIdentContinue_of_isIdentStart {c : Char} (h : isIdentStart c = true) :
    isIdentContinue c = true := by
  rw [isIdentContinue, h]
  rfl

/-- A digit does not start a name. -/
theorem isIdentStart_of_isDigit {c : Char} (h : c.isDigit = true) : isIdentStart c = false := by
  refine eq_false_of_points [48, 49, 50, 51, 52, 53, 54, 55, 56, 57] (by decide +kernel) ?_
  simp only [Char.isDigit, Bool.and_eq_true, decide_eq_true_eq, ge_iff_le,
    UInt32.le_iff_toNat_le] at h
  simp only [List.mem_cons, List.not_mem_nil, or_false]
  have low : 48 ≤ c.toNat := h.1
  have high : c.toNat ≤ 57 := h.2
  omega

/-- A character of a name is none that cannot stand in one. -/
theorem ne_of_isIdentContinue {c d : Char} (hc : isIdentContinue c = true)
    (hd : isIdentContinue d = false) : c ≠ d := by
  rintro rfl
  rw [hc] at hd
  cases hd

/-- A name does not begin with a digit. -/
theorem not_isDigit_of_isIdentStart {c : Char} (start : isIdentStart c = true) :
    c.isDigit = false := by
  cases digit : c.isDigit with
  | false => rfl
  | true =>
    rw [isIdentStart_of_isDigit digit] at start
    cases start

/-! ### Words as texts -/

theorem PlainWord.toList_text (w : PlainWord) : w.text.toList = w.first :: w.others :=
  String.toList_ofList

theorem Word.toList_text_raw (w : PlainWord) (free : w.text ∉ neverRaw) :
    (Word.raw w free).text.toList = 'r' :: '#' :: w.first :: w.others := by
  rw [Word.text, String.toList_append, w.toList_text]
  rfl

/-- A word begins with a character that starts one. -/
theorem Word.exists_text_eq_cons (w : Word) :
    ∃ c cs, w.text.toList = c :: cs ∧ isIdentStart c = true := by
  cases w with
  | plain w => exact ⟨w.first, w.others, w.toList_text, w.starts⟩
  | raw w free => exact ⟨_, _, Word.toList_text_raw w free, by decide⟩

theorem PlainWord.getLast_chars (w : PlainWord) :
    ∀ c ∈ (w.first :: w.others).getLast?, isIdentContinue c = true := by
  intro c hc
  rcases List.mem_cons.mp (List.mem_of_getLast? hc) with rfl | inside
  · exact isIdentContinue_of_isIdentStart w.starts
  · exact List.all_eq_true.mp w.continues c inside

/-- A word ends with a character that continues one. -/
theorem Word.getLast_text (w : Word) :
    ∀ c ∈ w.text.toList.getLast?, isIdentContinue c = true := by
  intro c hc
  cases w with
  | plain w =>
    rw [Word.text, w.toList_text] at hc
    exact w.getLast_chars c hc
  | raw w free =>
    rw [Word.toList_text_raw, List.getLast?_cons_cons, List.getLast?_cons_cons] at hc
    exact w.getLast_chars c hc

/-! ### Reading tokens -/

theorem Token.sizes_append (front back : List Token) :
    Token.sizes (front ++ back) = Token.sizes front + Token.sizes back := by
  induction front with
  | nil => simp [sizes]
  | cons token front ih =>
    simp only [List.cons_append, sizes, ih]
    omega

namespace Scan

/-- A text is read as some tokens, with `rest` behind it and whatever stands before it. -/
structure Reads (cs : List Char) (tokens : List Token) (rest : List Char) : Prop where
  /-- Every token takes a character at least, so the length of a text is fuel enough. -/
  short : Token.sizes tokens ≤ cs.length
  trees : ∀ fuel enclosing trees,
    trees? (Token.sizes tokens + fuel) enclosing trees (cs ++ rest) =
      trees? fuel enclosing (tokens.reverse ++ trees) rest

theorem Reads.append {cs ds rest : List Char} {front back : List Token}
    (h₁ : Reads cs front (ds ++ rest)) (h₂ : Reads ds back rest) :
    Reads (cs ++ ds) (front ++ back) rest where
  short := by
    rw [Token.sizes_append, List.length_append]
    exact Nat.add_le_add h₁.short h₂.short
  trees fuel enclosing trees := by
    rw [Token.sizes_append, Nat.add_assoc, List.append_assoc, h₁.trees, h₂.trees, List.reverse_append,
      List.append_assoc]

/-- A text that is read up to its end has those tokens. -/
theorem Reads.scan? {cs : List Char} {tokens : List Token} (h : Reads cs tokens [])
    (unmarked : cs.head? ≠ some (Char.ofNat 0xFEFF)) : Token.scan? cs = some tokens := by
  obtain ⟨more, hmore⟩ : ∃ more, cs.length + 2 = Token.sizes tokens + (more + 1) :=
    ⟨cs.length + 1 - Token.sizes tokens, by have short := h.short; omega⟩
  rw [Token.scan?, if_neg unmarked, hmore]
  have read := h.trees (more + 1) [] []
  rw [List.append_nil, List.append_nil] at read
  rw [read]
  simp [trees?, skipSpace, docComment?, startsWith]

/-- The beginning of a leaf: a character that is no space, bracket or slash. -/
structure StartsLeaf (c : Char) : Prop where
  notSpace : isSpace c = false
  notSlash : c ≠ '/'
  notOpening : opening? c = none
  notClosing : closing? c = none

theorem startsWith_of_ne {word : String} {c d : Char} {cs : List Char}
    (hword : word.toList.head? = some d) (h : d ≠ c) : startsWith word (c :: cs) = false := by
  obtain ⟨ds, hds⟩ := List.head?_eq_some_iff.mp hword
  rw [startsWith, hds, List.isPrefixOf, beq_false_of_ne h, Bool.false_and]

/-- Only a slash begins a comment. -/
theorem comment?_of_ne {c : Char} (h : c ≠ '/') (cs : List Char) : comment? (c :: cs) = none := by
  have no : ∀ word : String, word.toList.head? = some '/' → startsWith word (c :: cs) = false :=
    fun word hword => startsWith_of_ne hword h.symm
  simp [comment?, no "//" rfl, no "/**/" rfl, no "/*" rfl]

theorem docComment?_of_ne {c : Char} (h : c ≠ '/') (cs : List Char) :
    docComment? (c :: cs) = none := by
  have no : ∀ word : String, word.toList.head? = some '/' → startsWith word (c :: cs) = false :=
    fun word hword => startsWith_of_ne hword h.symm
  simp [docComment?, no "//!" rfl, no "/*!" rfl, no "///" rfl, no "/**" rfl]

/-- A character that the scanner does not pass over is where it goes on. -/
theorem skipSpace_of_stays {c : Char} (space : isSpace c = false) (slash : c ≠ '/')
    (cs : List Char) : skipSpace (c :: cs).length (c :: cs) = c :: cs := by
  rw [List.length_cons, skipSpace, comment?_of_ne slash]
  simp only [space, Bool.false_eq_true, if_false]

/-- A leaf is read by itself. -/
theorem reads_leaf {c : Char} {cs rest : List Char} {token : Token} (size : token.size = 1)
    (hc : StartsLeaf c) (h : leaf? (c :: (cs ++ rest)) = some (token, rest)) :
    Reads (c :: cs) [token] rest where
  short := by
    simp only [Token.sizes, size, List.length_cons]
    omega
  trees fuel enclosing trees := by
    have step : Token.sizes [token] + fuel = fuel + 1 := by
      simp only [Token.sizes, size]
      omega
    rw [step, trees?, List.cons_append, skipSpace_of_stays hc.notSpace hc.notSlash]
    simp only [docComment?_of_ne hc.notSlash, hc.notOpening, hc.notClosing, h]
    rfl

/-! ### Signs -/

/-- The signs inside a type. -/
def typeSigns : List Char := ['<', '>', ',']

/-- The end of a name inside a type: a sign, or the end of the text. -/
def EndsName (rest : List Char) : Prop := ∀ c ∈ rest.head?, c ∈ typeSigns

/-- A sign is read as itself; whether another one follows at once is noted. -/
theorem reads_sign {c : Char} (hc : c ∈ typeSigns) (rest : List Char) :
    Reads [c] [.punct c (punctChar? rest).isSome] rest := by
  simp only [typeSigns, List.mem_cons, List.not_mem_nil, or_false] at hc
  rcases hc with rfl | rfl | rfl
  · exact reads_leaf rfl ⟨by decide, by decide, rfl, rfl⟩ rfl
  · exact reads_leaf rfl ⟨by decide, by decide, rfl, rfl⟩ rfl
  · exact reads_leaf rfl ⟨by decide, by decide, rfl, rfl⟩ rfl

/-- A blank is passed over. -/
theorem reads_space (rest : List Char) : Reads [' '] [] rest where
  short := Nat.zero_le _
  trees fuel enclosing trees := by
    cases fuel with
    | zero => rfl
    | succ fuel =>
      have blank : isSpace ' ' = true := by decide
      have skip : skipSpace (rest.length + 1) (' ' :: rest) = skipSpace rest.length rest := by
        rw [skipSpace, comment?_of_ne (by decide)]
        simp only [blank, if_true]
      have steps : Token.sizes [] + (fuel + 1) = fuel + 1 := Nat.zero_add _
      rw [steps]
      simp only [List.singleton_append, trees?, List.length_cons, skip, List.reverse_nil,
        List.nil_append]

/-- The empty pair of parentheses is a group without content. -/
theorem reads_unit (rest : List Char) : Reads ['(', ')'] [.group .paren []] rest where
  short := Nat.le_refl 2
  trees fuel enclosing trees := by
    have steps : Token.sizes [.group .paren []] + fuel = fuel + 1 + 1 := Nat.add_comm 2 fuel
    have opens := skipSpace_of_stays (c := '(') (by decide) (by decide) (')' :: rest)
    have closes := skipSpace_of_stays (c := ')') (by decide) (by decide) rest
    rw [steps]
    show trees? (fuel + 1 + 1) enclosing trees ('(' :: ')' :: rest) = _
    rw [trees?, opens]
    simp only [docComment?_of_ne (c := '(') (by decide)]
    show trees? (fuel + 1) ((.paren, trees) :: enclosing) [] (')' :: rest) = _
    rw [trees?, closes]
    simp only [docComment?_of_ne (c := ')') (by decide)]
    rfl

/-! ### Words -/

/-- No quote and no number sign follows at once. -/
def Unquoted (cs : List Char) : Prop := ∀ c ∈ cs.head?, c ≠ '\x22' ∧ c ≠ '\x27' ∧ c ≠ '#'

theorem unquoted_of_isIdentContinue {c : Char} (h : isIdentContinue c = true) (cs : List Char) :
    Unquoted (c :: cs) := by
  intro d hd
  obtain rfl := Option.some.inj hd
  exact ⟨ne_of_isIdentContinue h (by decide), ne_of_isIdentContinue h (by decide),
    ne_of_isIdentContinue h (by decide)⟩

theorem EndsName.unquoted {cs : List Char} (h : EndsName cs) : Unquoted cs := by
  intro c hc
  have sign := h c hc
  simp only [typeSigns, List.mem_cons, List.not_mem_nil, or_false] at sign
  rcases sign with rfl | rfl | rfl <;> decide

theorem EndsName.isIdentContinue {cs : List Char} (h : EndsName cs) :
    ∀ c ∈ cs.head?, isIdentContinue c = false := by
  intro c hc
  have sign := h c hc
  simp only [typeSigns, List.mem_cons, List.not_mem_nil, or_false] at sign
  rcases sign with rfl | rfl | rfl <;> decide

/-- A raw string has a quote behind its number signs. -/
theorem rawString?_of_ne_quote {cs : List Char}
    (h : (cs.dropWhile (· = '#')).head? ≠ some '\x22') (kind : StringKind) :
    rawString? kind cs = none := by
  unfold rawString?
  split
  · rename_i heq
    rw [heq] at h
    exact absurd rfl h
  · rfl

theorem rawString?_of_unquoted {cs : List Char} (h : Unquoted cs) (kind : StringKind) :
    rawString? kind cs = none := by
  refine rawString?_of_ne_quote ?_ kind
  cases cs with
  | nil => exact fun h => by cases h
  | cons c cs =>
    obtain ⟨quote, -, sign⟩ := h c rfl
    rw [List.dropWhile_cons_of_neg (by simpa using sign)]
    exact fun h => quote (Option.some.inj h)

/-- A name is no string: the letters that strings begin with are followed by quotes there. -/
theorem string?_of_unquoted {c : Char} {cs : List Char} (start : isIdentStart c = true)
    (first : Unquoted cs) (second : ∀ ds, cs = 'r' :: ds → Unquoted ds) :
    string? (c :: cs) = none := by
  have named := isIdentContinue_of_isIdentStart start
  unfold string?
  split
  · rename_i heq
    exact absurd (List.cons.inj heq).1 (ne_of_isIdentContinue named (by decide))
  · rename_i heq
    rw [← (List.cons.inj heq).2, rawString?_of_unquoted first]
    rfl
  · rename_i heq
    rw [(List.cons.inj heq).2] at first
    exact absurd rfl (first _ rfl).1
  · rename_i heq
    rw [rawString?_of_unquoted (second _ (List.cons.inj heq).2)]
    rfl
  · rename_i heq
    rw [(List.cons.inj heq).2] at first
    exact absurd rfl (first _ rfl).1
  · rename_i heq
    rw [rawString?_of_unquoted (second _ (List.cons.inj heq).2)]
    rfl
  · rfl

/-- A letter has a hexadecimal value of ten or more, if it has one. -/
theorem le_of_hexValue? {c : Char} {d : Nat} (start : isIdentStart c = true)
    (h : hexValue? c = some d) : 10 ≤ d := by
  unfold hexValue? at h
  split at h
  · rename_i digit
    have : c.isDigit = true := by
      simp only [Char.isDigit, Bool.and_eq_true, decide_eq_true_eq, ge_iff_le]
      exact digit
    rw [not_isDigit_of_isIdentStart start] at this
    cases this
  · split at h
    · have := Option.some.inj h
      omega
    · split at h
      · have := Option.some.inj h
        omega
      · cases h

/-- A name is no integer: it does not begin with a digit. -/
theorem int?_of_isIdentStart {c : Char} (start : isIdentStart c = true) (cs : List Char) :
    int? (c :: cs) = none := by
  have notDigit := not_isDigit_of_isIdentStart start
  have digits : intDigits? 10 false (c :: cs) = none := by
    rw [intDigits?]
    simp only [notDigit, Bool.false_eq_true, if_false]
    split
    · rfl
    · split
      · rename_i d value
        rw [if_neg (Nat.not_lt.mpr (le_of_hexValue? start value))]
      · rfl
  have zero : c ≠ '0' := by
    rintro rfl
    cases notDigit
  have body : intBody? (c :: cs) = none := by
    unfold intBody?
    split
    rename_i base mark heq
    have decimal : (base, mark) = (10, []) := by
      rw [← heq]
      split
      · rename_i same
        exact absurd (List.cons.inj same).1 zero
      · rename_i same
        exact absurd (List.cons.inj same).1 zero
      · rename_i same
        exact absurd (List.cons.inj same).1 zero
      · rfl
    cases decimal
    show (intDigits? 10 false (c :: cs)).map _ = none
    rw [digits]
    rfl
  rw [int?, body]
  rfl

theorem float?_of_isIdentStart {c : Char} (start : isIdentStart c = true) (cs : List Char) :
    float? (c :: cs) = none := by
  have body : floatBody? (c :: cs) = none := by
    simp only [floatBody?, not_isDigit_of_isIdentStart start, Bool.not_false, if_true]
  rw [float?, body]
  rfl

/-- A name that is no string is no literal at all. -/
theorem literal?_of_string? {c : Char} {cs : List Char} (start : isIdentStart c = true)
    (unquoted : ∀ d ∈ cs.head?, d ≠ '\x27') (h : string? (c :: cs) = none) :
    literal? (c :: cs) = none := by
  unfold literal?
  rw [h, float?_of_isIdentStart start, int?_of_isIdentStart start]
  split
  · rename_i string
    cases string
  -- a byte or a character has a quote in front, or behind the first letter
  split
  · rename_i byte
    rw [(List.cons.inj byte).2] at unquoted
    exact absurd rfl (unquoted _ rfl)
  · rename_i char
    have named := isIdentContinue_of_isIdentStart start
    exact absurd (List.cons.inj char).1 (ne_of_isIdentContinue named (by decide))
  · rfl

theorem punct?_of_isIdentStart {c : Char} (start : isIdentStart c = true) (cs : List Char) :
    punct? (c :: cs) = none := by
  have named := isIdentContinue_of_isIdentStart start
  have signs : "~!@#$%^&*-=+|;:,<.>/?'".toList.all (fun d => !isIdentContinue d) = true := by decide
  have other : "~!@#$%^&*-=+|;:,<.>/?'".toList.contains c = false := by
    cases member : "~!@#$%^&*-=+|;:,<.>/?'".toList.contains c with
    | false => rfl
    | true =>
      have no := List.all_eq_true.mp signs c (List.contains_iff_mem.mp member)
      rw [named] at no
      cases no
  have char : punctChar? (c :: cs) = none := by
    unfold punctChar?
    simp only [other, Bool.false_eq_true, if_false, ite_self]
  rw [punct?, char]
  rfl

/-- No string opens with the letters of a name. -/
theorem stringOpenings_of_unquoted {c : Char} {cs : List Char} (first : Unquoted cs)
    (second : ∀ ds, cs = 'r' :: ds → Unquoted ds) :
    stringOpenings.any (fun o => startsWith o (c :: cs)) = false := by
  cases cs with
  | nil => simp [stringOpenings, startsWith, List.isPrefixOf]
  | cons d ds =>
    obtain ⟨quote, apostrophe, sign⟩ := first d rfl
    have behind : 'r' = d → ['\x22'].isPrefixOf ds = false ∧ ['#'].isPrefixOf ds = false := by
      rintro rfl
      cases ds with
      | nil => exact ⟨rfl, rfl⟩
      | cons e ds =>
        obtain ⟨quote, -, sign⟩ := second (e :: ds) rfl e rfl
        simp [List.isPrefixOf, quote.symm, sign.symm]
    simp [stringOpenings, startsWith, List.isPrefixOf, quote.symm, apostrophe.symm, sign.symm]
    exact ⟨fun _ r => (behind r).1, fun _ r => (behind r).2, fun _ r => (behind r).1,
      fun _ r => (behind r).2⟩

/-- A word is read as itself up to where a name ends. -/
theorem word?_of_endsName (w : PlainWord) {rest : List Char} (hrest : EndsName rest) :
    word? (w.first :: (w.others ++ rest)) = some (w, rest) := by
  have inside := List.all_eq_true.mp w.continues
  have taken : (w.others ++ rest).takeWhile isIdentContinue = w.others := by
    rw [List.takeWhile_append_of_pos inside]
    cases rest with
    | nil => exact List.append_nil _
    | cons c rest => simp [hrest.isIdentContinue c rfl]
  have left : (w.others ++ rest).dropWhile isIdentContinue = rest := by
    rw [List.dropWhile_append_of_pos inside]
    cases rest with
    | nil => rfl
    | cons c rest => simp [hrest.isIdentContinue c rfl]
  simp only [word?, w.starts, dif_pos, taken, left]

theorem startsLeaf_of_isIdentStart {c : Char} (start : isIdentStart c = true) : StartsLeaf c := by
  have named := isIdentContinue_of_isIdentStart start
  have differs : ∀ d, isIdentContinue d = false → c ≠ d := fun d => ne_of_isIdentContinue named
  refine ⟨?_, differs '/' (by decide), ?_, ?_⟩
  · cases space : isSpace c with
    | false => rfl
    | true =>
      rw [isIdentContinue_of_isSpace space] at named
      cases named
  · simp only [opening?, differs '(' (by decide), differs '[' (by decide),
      differs '\x7b' (by decide), if_false]
  · simp only [closing?, differs ')' (by decide), differs ']' (by decide),
      differs '\x7d' (by decide), if_false]

/-- Behind the first character of a word no quote stands, nor behind an `r` in second place. -/
theorem unquoted_others (w : PlainWord) {rest : List Char} (hrest : EndsName rest) :
    Unquoted (w.others ++ rest) ∧
      ∀ ds, w.others ++ rest = 'r' :: ds → Unquoted ds := by
  have inside := List.all_eq_true.mp w.continues
  cases others : w.others with
  | nil =>
    refine ⟨hrest.unquoted, fun ds hds => ?_⟩
    -- an `r` does not end a name
    rw [List.nil_append] at hds
    have sign := hrest 'r' (by rw [hds]; rfl)
    exact absurd sign (by decide)
  | cons c more =>
    rw [others] at inside
    refine ⟨unquoted_of_isIdentContinue (inside c List.mem_cons_self) _, fun ds hds => ?_⟩
    rw [← (List.cons.inj hds).2]
    cases more with
    | nil => exact hrest.unquoted
    | cons d more =>
      exact unquoted_of_isIdentContinue
        (inside d (List.mem_cons_of_mem _ List.mem_cons_self)) _

theorem leaf?_plain (w : PlainWord) {rest : List Char} (hrest : EndsName rest) :
    leaf? (w.first :: (w.others ++ rest)) = some (.ident (.plain w), rest) := by
  obtain ⟨first, second⟩ := unquoted_others w hrest
  have literal : literal? (w.first :: (w.others ++ rest)) = none :=
    literal?_of_string? w.starts (fun d hd => (first d hd).2.1)
      (string?_of_unquoted w.starts first second)
  have notRaw : after? "r#" (w.first :: (w.others ++ rest)) = none := by
    refine if_neg ?_
    cases hcs : w.others ++ rest with
    | nil => simp [List.isPrefixOf]
    | cons d ds =>
      rw [hcs] at first
      simp [List.isPrefixOf, (first d rfl).2.2.symm]
  rw [leaf?, literal, punct?_of_isIdentStart w.starts, stringOpenings_of_unquoted first second]
  simp only [Bool.false_eq_true, if_false, ident?, notRaw, word?_of_endsName w hrest,
    Option.map_some]

theorem leaf?_raw (w : PlainWord) (free : w.text ∉ neverRaw) {rest : List Char}
    (hrest : EndsName rest) :
    leaf? ('r' :: '#' :: w.first :: (w.others ++ rest)) = some (.ident (.raw w free), rest) := by
  have named := isIdentContinue_of_isIdentStart w.starts
  have quote : w.first ≠ '\x22' := ne_of_isIdentContinue named (by decide)
  have sign : w.first ≠ '#' := ne_of_isIdentContinue named (by decide)
  have letter : isIdentStart 'r' = true := by decide
  have string : string? ('r' :: '#' :: w.first :: (w.others ++ rest)) = none := by
    have body : rawString? .text ('#' :: w.first :: (w.others ++ rest)) = none := by
      refine rawString?_of_ne_quote ?_ _
      rw [List.dropWhile_cons_of_pos (by rfl), List.dropWhile_cons_of_neg (by simpa using sign)]
      exact fun h => quote (Option.some.inj h)
    show (rawString? .text ('#' :: w.first :: (w.others ++ rest))).map _ = none
    rw [body]
    rfl
  have literal := literal?_of_string? letter (fun d hd => by
    obtain rfl := Option.some.inj hd
    decide) string
  have opens : stringOpenings.any
      (fun o => startsWith o ('r' :: '#' :: w.first :: (w.others ++ rest))) = false := by
    simp [stringOpenings, startsWith, List.isPrefixOf, quote.symm, sign.symm]
  have raw : after? "r#" ('r' :: '#' :: w.first :: (w.others ++ rest)) =
      some (w.first :: (w.others ++ rest)) := rfl
  rw [leaf?, literal, punct?_of_isIdentStart letter, opens]
  simp only [Bool.false_eq_true, if_false, ident?, raw, word?_of_endsName w hrest]
  simp [free]

/-- **A name is read as one word.** -/
theorem reads_word (w : Word) {rest : List Char} (hrest : EndsName rest) :
    Reads w.text.toList [.ident w] rest := by
  cases w with
  | plain w =>
    rw [Word.text, w.toList_text]
    exact reads_leaf rfl (startsLeaf_of_isIdentStart w.starts) (leaf?_plain w hrest)
  | raw w free =>
    rw [Word.toList_text_raw]
    exact reads_leaf rfl (startsLeaf_of_isIdentStart (by decide)) (leaf?_raw w free hrest)

end Scan
end Source
end RouteBook
