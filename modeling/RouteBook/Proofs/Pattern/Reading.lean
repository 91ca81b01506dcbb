import RouteBook.Pattern.PathPattern
import RouteBook.Proofs.Pattern.Matching
/-! # How the glob of a path is read

Only a whole segment `**` reaches beyond its segment.  Any other segment reads on its own
(`SegmentReads`): two stars in it are just two stars, and a class in it ends in it, provided that it
ends at all.  So the tokens of a path are those of its segments with slashes between them, except
that `**` takes up the slash before it and, unless it is the last segment, the one behind it as well
(`PathReads`).
-/
namespace RouteBook
namespace Glob

/-! ### One step of reading -/

section Steps
variable (fuel : Nat) (tokens : List Token) (before : Option Char)

theorem readTokens_nil : readTokens fuel tokens before [] = .ok tokens.reverse := by
  cases fuel <;> rfl

theorem readTokens_lastStars : readTokens (fuel + 1) tokens before ['*', '*'] =
    .ok (addDeep tokens before true true).reverse :=
  readTokens_nil fuel _ _

theorem readTokens_stars_slash (cs : List Char) :
    readTokens (fuel + 1) tokens before ('*' :: '*' :: '/' :: cs) =
      if tokens.isEmpty || before == some '/' then
        readTokens fuel (addDeep tokens before true false) (some '/') cs
      else readTokens fuel (addDeep tokens before false false) (some '*') ('/' :: cs) := rfl

theorem readTokens_stars {c : Char} (h : c ≠ '/') (cs : List Char) :
    readTokens (fuel + 1) tokens before ('*' :: '*' :: c :: cs) =
      readTokens fuel (addDeep tokens before false false) (some '*') (c :: cs) := by
  rw [readTokens]
  · exact fun he => List.cons_ne_nil c cs he
  · exact fun rest he => h (List.cons.inj he).1

theorem readTokens_star {cs : List Char} (h : cs.head? ≠ some '*') :
    readTokens (fuel + 1) tokens before ('*' :: cs) =
      readTokens fuel (.anyRun :: tokens) (some '*') cs := by
  rw [readTokens]
  rintro rest rfl
  exact h rfl

theorem readTokens_question (cs : List Char) :
    readTokens (fuel + 1) tokens before ('?' :: cs) =
      readTokens fuel (.anyOne :: tokens) (some '?') cs := rfl

theorem readTokens_bracket (cs : List Char) :
    readTokens (fuel + 1) tokens before ('[' :: cs) =
      match classAt cs with
      | .error fault => .error fault
      | .ok (token, rest) => readTokens fuel (token :: tokens) (some ']') rest := rfl

theorem readTokens_escape (c : Char) (cs : List Char) :
    readTokens (fuel + 1) tokens before ('\\' :: c :: cs) =
      readTokens fuel (.literal c :: tokens) (some c) cs := rfl

/-- The characters that do not stand for themselves. -/
def special : List Char := ['*', '?', '[', '\\']

theorem readTokens_char {c : Char} (h : c ∉ special) (cs : List Char) :
    readTokens (fuel + 1) tokens before (c :: cs) =
      readTokens fuel (.literal c :: tokens) (some c) cs := by
  simp only [special, List.mem_cons, List.not_mem_nil, or_false, not_or] at h
  rw [readTokens] <;> simp_all

end Steps

/-- **What has neither classes nor escapes is a glob.** -/
theorem exists_readTokens_eq_ok {fuel : Nat} {tokens : List Token} {before : Option Char}
    {cs : List Char} (hclass : '[' ∉ cs) (hescape : '\\' ∉ cs) :
    ∃ result, readTokens fuel tokens before cs = .ok result := by
  fun_induction readTokens fuel tokens before cs with
  -- a class would start in cases 9 and 10, and an escape in cases 11 and 12
  | case1 | case2 => exact ⟨_, rfl⟩
  | case9 | case10 => exact absurd List.mem_cons_self hclass
  | case11 | case12 => exact absurd List.mem_cons_self hescape
  | case3 _ _ _ ih => exact ih List.not_mem_nil List.not_mem_nil
  | case4 _ _ _ _ _ _ ih =>
    apply ih
    · exact fun hmem => hclass (List.mem_append_right ['*', '*', '/'] hmem)
    · exact fun hmem => hescape (List.mem_append_right ['*', '*', '/'] hmem)
  | case5 _ _ _ _ _ _ ih | case6 _ _ _ _ _ _ ih =>
    apply ih
    · exact fun hmem => hclass (List.mem_append_right ['*', '*'] hmem)
    · exact fun hmem => hescape (List.mem_append_right ['*', '*'] hmem)
  | case7 _ _ _ _ _ ih | case8 _ _ _ _ ih | case13 _ _ _ _ _ _ _ _ _ _ _ ih =>
    apply ih
    · exact fun hmem => hclass (List.mem_cons_of_mem _ hmem)
    · exact fun hmem => hescape (List.mem_cons_of_mem _ hmem)

/-! ### Classes -/

/-- A class that ends is read in the same way whatever comes behind it. -/
theorem readClass_append {cls : OpenClass} {cs rest : List Char} {token : Token}
    (h : readClass cls cs = .ok (token, rest)) (more : List Char) :
    readClass cls (cs ++ more) = .ok (token, rest ++ more) := by
  induction cs generalizing cls with
  | nil => cases h
  | cons c cs ih =>
    rw [List.cons_append]
    unfold readClass at h ⊢
    split at h
    · rename_i hclose
      rw [if_pos hclose]
      cases h
      rfl
    · rename_i hopen
      rw [if_neg hopen]
      cases hread : cls.read c with
      | error fault =>
        rw [hread] at h
        cases h
      | ok cls' =>
        rw [hread] at h
        exact ih h

/-- So is a class with a malformed range. -/
theorem readClass_append_of_error {cls : OpenClass} {cs : List Char} {fault : Fault}
    (h : readClass cls cs = .error fault) (hfault : fault ≠ .unclosedClass) (more : List Char) :
    readClass cls (cs ++ more) = .error fault := by
  induction cs generalizing cls with
  | nil =>
    cases h
    exact absurd rfl hfault
  | cons c cs ih =>
    rw [List.cons_append]
    unfold readClass at h ⊢
    split at h
    · cases h
    · rename_i hopen
      rw [if_neg hopen]
      cases hread : cls.read c with
      | error fault' =>
        rw [hread] at h
        exact h
      | ok cls' =>
        rw [hread] at h
        exact ih h

/-- A class is a token of its own, and leaves an end of the text. -/
theorem readClass_eq_ok {cls : OpenClass} {cs rest : List Char} {token : Token}
    (h : readClass cls cs = .ok (token, rest)) :
    (∃ negated ranges, token = .oneOf negated ranges) ∧ ∃ read, cs = read ++ rest := by
  induction cs generalizing cls with
  | nil => cases h
  | cons c cs ih =>
    unfold readClass at h
    split at h
    · cases h
      exact ⟨⟨_, _, rfl⟩, [c], rfl⟩
    · cases hread : cls.read c with
      | error fault =>
        rw [hread] at h
        cases h
      | ok cls' =>
        rw [hread] at h
        obtain ⟨htoken, read, rfl⟩ := ih h
        exact ⟨htoken, c :: read, rfl⟩

/-- The three ways for a class to start come to the same. -/
theorem exists_classAt_eq (cs : List Char) :
    ∃ sign cls inside, cs = sign ++ inside ∧ classAt cs = readClass cls inside ∧
      ∀ more, inside ≠ [] → classAt (cs ++ more) = readClass cls (inside ++ more) := by
  unfold classAt
  split
  · exact ⟨['!'], _, _, rfl, rfl, fun _ _ => rfl⟩
  · exact ⟨['^'], _, _, rfl, rfl, fun _ _ => rfl⟩
  · rename_i hbang hcaret
    refine ⟨[], _, cs, rfl, rfl, fun more hne => ?_⟩
    obtain ⟨c, rest, rfl⟩ := List.exists_cons_of_ne_nil hne
    rw [List.cons_append]
    split
    · rename_i h
      exact absurd (by rw [(List.cons.inj h).1]) (hbang rest)
    · rename_i h
      exact absurd (by rw [(List.cons.inj h).1]) (hcaret rest)
    · rfl

theorem classAt_append {cs rest : List Char} {token : Token}
    (h : classAt cs = .ok (token, rest)) (more : List Char) :
    classAt (cs ++ more) = .ok (token, rest ++ more) := by
  obtain ⟨sign, cls, inside, -, hread, happend⟩ := exists_classAt_eq cs
  rw [hread] at h
  have hne : inside ≠ [] := by
    rintro rfl
    cases h
  rw [happend more hne, readClass_append h]

theorem classAt_append_of_error {cs : List Char} {fault : Fault}
    (h : classAt cs = .error fault) (hfault : fault ≠ .unclosedClass) (more : List Char) :
    classAt (cs ++ more) = .error fault := by
  obtain ⟨sign, cls, inside, -, hread, happend⟩ := exists_classAt_eq cs
  rw [hread] at h
  have hne : inside ≠ [] := by
    rintro rfl
    cases h
    exact hfault rfl
  rw [happend more hne, readClass_append_of_error h hfault]

theorem classAt_eq_ok {cs rest : List Char} {token : Token} (h : classAt cs = .ok (token, rest)) :
    (∃ negated ranges, token = .oneOf negated ranges) ∧ ∃ read, cs = read ++ rest := by
  obtain ⟨sign, cls, inside, rfl, hread, -⟩ := exists_classAt_eq cs
  rw [hread] at h
  obtain ⟨htoken, read, rfl⟩ := readClass_eq_ok h
  exact ⟨htoken, sign ++ read, (List.append_assoc _ _ _).symm⟩

/-! ### Segments -/

/-- **How a segment reads on its own.**  An escape at its end escapes the slash behind it, and that
stands for itself anyway. -/
inductive SegmentReads : List Char → List Token → Prop where
  | nil : SegmentReads [] []
  | star {cs tokens} : SegmentReads cs tokens → SegmentReads ('*' :: cs) (.anyRun :: tokens)
  | question {cs tokens} : SegmentReads cs tokens → SegmentReads ('?' :: cs) (.anyOne :: tokens)
  | bracket {cs rest token tokens} : classAt cs = .ok (token, rest) → SegmentReads rest tokens →
      SegmentReads ('[' :: cs) (token :: tokens)
  | escape {c cs tokens} : SegmentReads cs tokens →
      SegmentReads ('\\' :: c :: cs) (.literal c :: tokens)
  | lastEscape : SegmentReads ['\\'] []
  | char {c cs tokens} : c ∉ special → SegmentReads cs tokens →
      SegmentReads (c :: cs) (.literal c :: tokens)

/-- A segment without a slash reads into tokens that stay inside a segment. -/
theorem SegmentReads.isInner {cs : List Char} {tokens : List Token} (h : SegmentReads cs tokens)
    (hslash : '/' ∉ cs) : ∀ token ∈ tokens, token.IsInner := by
  induction h with
  | nil => exact fun _ ht => absurd ht List.not_mem_nil
  | lastEscape => exact fun _ ht => absurd ht List.not_mem_nil
  | star _ ih =>
    refine List.forall_mem_cons.mpr ⟨⟨by decide, rfl⟩, ih fun hmem => ?_⟩
    exact hslash (List.mem_cons_of_mem _ hmem)
  | question _ ih =>
    refine List.forall_mem_cons.mpr ⟨⟨by decide, rfl⟩, ih fun hmem => ?_⟩
    exact hslash (List.mem_cons_of_mem _ hmem)
  | bracket hclass _ ih =>
    obtain ⟨⟨negated, ranges, rfl⟩, read, rfl⟩ := classAt_eq_ok hclass
    refine List.forall_mem_cons.mpr ⟨⟨nofun, rfl⟩, ih fun hmem => ?_⟩
    exact hslash (List.mem_cons_of_mem _ (List.mem_append_right read hmem))
  | escape _ ih =>
    refine List.forall_mem_cons.mpr ⟨⟨fun he => hslash ?_, rfl⟩, ih fun hmem => ?_⟩
    · rw [Token.literal.inj he]
      exact List.mem_cons_of_mem _ List.mem_cons_self
    · exact hslash (List.mem_cons_of_mem _ (List.mem_cons_of_mem _ hmem))
  | char _ _ ih =>
    refine List.forall_mem_cons.mpr ⟨⟨fun he => hslash ?_, rfl⟩, ih fun hmem => ?_⟩
    · rw [Token.literal.inj he]
      exact List.mem_cons_self
    · exact hslash (List.mem_cons_of_mem _ hmem)

/-! ### Reading on -/

/-- Reading what is left of a glob gives the tokens `result`. -/
def Reads (tokens : List Token) (before : Option Char) (cs : List Char) (result : List Token) :
    Prop :=
  ∃ fuel, cs.length ≤ fuel ∧ readTokens fuel tokens before cs = .ok result

/-- No class is left open at the end of a text, wherever it is read. -/
def ClosesClasses (cs : List Char) : Prop :=
  ∃ fuel tokens before, cs.length ≤ fuel ∧
    readTokens fuel tokens before cs ≠ .error .unclosedClass

theorem closesClasses_of_notMem {cs : List Char} (hclass : '[' ∉ cs) (hescape : '\\' ∉ cs) :
    ClosesClasses cs := by
  obtain ⟨result, hread⟩ : ∃ result, readTokens cs.length [] none cs = .ok result :=
    exists_readTokens_eq_ok hclass hescape
  refine ⟨cs.length, [], none, Nat.le_refl _, ?_⟩
  rw [hread]
  exact nofun

/-- Reading goes on behind a segment: the path is at its end, or a slash follows. -/
def ReadsBehind (tokens : List Token) (rest : List Char) (result : List Token) : Prop :=
  rest = [] ∧ result = tokens.reverse ∨
    ∃ more, rest = '/' :: more ∧ Reads (.literal '/' :: tokens) (some '/') more result

variable {tokens result : List Token} {before : Option Char}

/-- A step that reads some characters, from enough fuel. -/
theorem Reads.step {cs rest : List Char} {tokens' : List Token} {before' : Option Char}
    (h : Reads tokens before cs result) (hlength : rest.length < cs.length)
    (hstep : ∀ fuel, readTokens (fuel + 1) tokens before cs =
      readTokens fuel tokens' before' rest) :
    Reads tokens' before' rest result := by
  obtain ⟨fuel, hfuel, hread⟩ := h
  obtain ⟨fuel, rfl⟩ : ∃ n, fuel = n + 1 := ⟨fuel - 1, by omega⟩
  exact ⟨fuel, by omega, hstep fuel ▸ hread⟩

theorem ClosesClasses.step {cs rest : List Char} (h : ClosesClasses cs)
    (hlength : rest.length < cs.length)
    (hstep : ∀ fuel tokens before, ∃ tokens' before', readTokens (fuel + 1) tokens before cs =
      readTokens fuel tokens' before' rest) : ClosesClasses rest := by
  obtain ⟨fuel, tokens, before, hfuel, hread⟩ := h
  obtain ⟨fuel, rfl⟩ : ∃ n, fuel = n + 1 := ⟨fuel - 1, by omega⟩
  obtain ⟨tokens', before', heq⟩ := hstep fuel tokens before
  exact ⟨fuel, tokens', before', by omega, heq ▸ hread⟩

theorem reads_nil (h : Reads tokens before [] result) : result = tokens.reverse := by
  obtain ⟨fuel, -, hread⟩ := h
  rw [readTokens_nil] at hread
  exact (Except.ok.inj hread).symm

theorem Reads.slash {more : List Char} (h : Reads tokens before ('/' :: more) result) :
    Reads (.literal '/' :: tokens) (some '/') more result :=
  h.step (Nat.lt_succ_self _) fun fuel => readTokens_char fuel tokens before (by decide) more

theorem readsBehind_of_reads {rest : List Char} (hrest : rest = [] ∨ ∃ more, rest = '/' :: more)
    (h : Reads tokens before rest result) : ReadsBehind tokens rest result := by
  rcases hrest with rfl | ⟨more, rfl⟩
  · exact .inl ⟨rfl, reads_nil h⟩
  · exact .inr ⟨more, rfl, h.slash⟩

/-- Two stars that are no whole segment are two stars. -/
theorem addDeep_eq_anyRun {ends last : Bool} (hne : tokens ≠ [])
    (h : before ≠ some '/' ∨ ends = false) :
    addDeep tokens before ends last = .anyRun :: .anyRun :: tokens := by
  obtain ⟨token, rest, rfl⟩ := List.exists_cons_of_ne_nil hne
  unfold addDeep
  exact if_neg fun hboth => h.elim (fun hb => hb hboth.1) fun he => by simp [he] at hboth

/-- A piece of a segment has been read, and reading is still inside the segment. -/
structure ReadsPiece (cs rest : List Char) (tokens result read : List Token)
    (remaining : List Char) (c : Char) : Prop where
  length_lt : remaining.length < cs.length
  subset : remaining ⊆ cs
  extend : ∀ {more}, SegmentReads remaining more → SegmentReads cs (read ++ more)
  reads : Reads (read.reverse ++ tokens) (some c) (remaining ++ rest) result
  ne_slash : c ≠ '/'
  closes : ClosesClasses remaining

section Cases
variable {cs rest : List Char}

/-- Two stars at the end of a segment that they are not the whole of. -/
theorem Reads.of_lastStars (h : Reads tokens before ('*' :: '*' :: rest) result)
    (hrest : rest = [] ∨ ∃ more, rest = '/' :: more) (hne : tokens ≠ [])
    (hbefore : before ≠ some '/') :
    Reads (.anyRun :: .anyRun :: tokens) (some '*') rest result := by
  refine h.step (by simp only [List.length_cons]; omega) fun fuel => ?_
  rcases hrest with rfl | ⟨more, rfl⟩
  · rw [readTokens_lastStars, addDeep_eq_anyRun hne (.inl hbefore), readTokens_nil]
  · have inside : (tokens.isEmpty || before == some '/') = false := by
      rw [Bool.or_eq_false_iff, List.isEmpty_eq_false_iff, beq_eq_false_iff_ne]
      exact ⟨hne, hbefore⟩
    rw [readTokens_stars_slash, inside, addDeep_eq_anyRun hne (.inr rfl)]
    rfl

/-- A star, or two of them, at the front of a segment. -/
theorem Reads.star_cases (h : Reads tokens before ('*' :: cs ++ rest) result)
    (hslash : '/' ∉ cs) (hcloses : ClosesClasses ('*' :: cs))
    (hrest : rest = [] ∨ ∃ more, rest = '/' :: more) (hne : tokens ≠ [])
    (hdeep : '*' :: cs ≠ PathPattern.deep ∨ before ≠ some '/') :
    (∃ read remaining c, ReadsPiece ('*' :: cs) rest tokens result read remaining c) ∨
      ∃ read, SegmentReads ('*' :: cs) read ∧
        ReadsBehind (read.reverse ++ tokens) rest result := by
  by_cases hstar : cs.head? = some '*'
  · obtain ⟨cs, rfl⟩ : ∃ tail, cs = '*' :: tail := List.head?_eq_some_iff.mp hstar
    cases cs with
    | nil =>
      have hbefore : before ≠ some '/' := hdeep.resolve_left fun hne => hne rfl
      exact .inr ⟨[.anyRun, .anyRun], .star (.star .nil),
        readsBehind_of_reads hrest (h.of_lastStars hrest hne hbefore)⟩
    | cons c cs =>
      have hc : c ≠ '/' := fun he =>
        hslash (he ▸ List.mem_cons_of_mem _ List.mem_cons_self)
      refine .inl ⟨[.anyRun, .anyRun], c :: cs, '*', by simp, fun d hd => ?_,
        fun hmore => .star (.star hmore), h.step (by simp) fun fuel => ?_, by decide,
        hcloses.step (by simp) fun fuel tokens before => ⟨_, _, readTokens_stars fuel _ _ hc cs⟩⟩
      · exact List.mem_cons_of_mem _ (List.mem_cons_of_mem _ hd)
      · rw [List.cons_append, List.cons_append, List.cons_append, readTokens_stars _ _ _ hc,
          addDeep_eq_anyRun hne (.inr rfl)]
        rfl
  · have hnext : (cs ++ rest).head? ≠ some '*' := by
      cases cs with
      | nil => rcases hrest with rfl | ⟨more, rfl⟩ <;> simp
      | cons c cs => exact hstar
    exact .inl ⟨[.anyRun], cs, '*', Nat.lt_succ_self _, List.subset_cons_self _ cs, .star,
      h.step (Nat.lt_succ_self _) fun fuel => readTokens_star fuel tokens before hnext, by decide,
      hcloses.step (Nat.lt_succ_self _) fun fuel tokens before =>
        ⟨_, _, readTokens_star fuel tokens before hstar⟩⟩

/-- A class at the front of a segment. -/
theorem Reads.bracket_cases (h : Reads tokens before ('[' :: cs ++ rest) result)
    (hcloses : ClosesClasses ('[' :: cs)) :
    ∃ read remaining c, ReadsPiece ('[' :: cs) rest tokens result read remaining c := by
  obtain ⟨fuel, hfuel, hread⟩ := h
  obtain ⟨fuel', tokens', before', hfuel', hread'⟩ := hcloses
  obtain ⟨fuel, rfl⟩ : ∃ n, fuel = n + 1 := ⟨fuel - 1, by simp at hfuel; omega⟩
  obtain ⟨fuel', rfl⟩ : ∃ n, fuel' = n + 1 := ⟨fuel' - 1, by simp at hfuel'; omega⟩
  rw [List.cons_append, readTokens_bracket] at hread
  rw [readTokens_bracket] at hread'
  cases hclass : classAt cs with
  | error fault =>
    -- a class that does not end is excluded, and a malformed range would come up here as well
    rw [hclass] at hread'
    have hfault : fault ≠ .unclosedClass := fun he => hread' (by rw [he])
    rw [classAt_append_of_error hclass hfault] at hread
    cases hread
  | ok result' =>
    obtain ⟨token, remaining⟩ := result'
    rw [hclass] at hread'
    rw [classAt_append hclass] at hread
    obtain ⟨-, front, rfl⟩ := classAt_eq_ok hclass
    simp only [List.length_cons, List.length_append] at hfuel hfuel'
    have shorter : remaining.length < ('[' :: (front ++ remaining)).length := by
      simp only [List.length_cons, List.length_append]
      omega
    have enough : (remaining ++ rest).length ≤ fuel := by
      simp only [List.length_append]
      omega
    exact ⟨[token], remaining, ']', shorter,
      fun d hd => List.mem_cons_of_mem _ (List.mem_append_right front hd), .bracket hclass,
      ⟨fuel, enough, hread⟩, by decide, ⟨fuel', _, _, by omega, hread'⟩⟩

/-- An escape at the front of a segment. -/
theorem Reads.escape_cases (h : Reads tokens before ('\\' :: cs ++ rest) result)
    (hslash : '/' ∉ cs) (hcloses : ClosesClasses ('\\' :: cs))
    (hrest : rest = [] ∨ ∃ more, rest = '/' :: more) :
    (∃ read remaining c, ReadsPiece ('\\' :: cs) rest tokens result read remaining c) ∨
      ∃ read, SegmentReads ('\\' :: cs) read ∧
        ReadsBehind (read.reverse ++ tokens) rest result := by
  cases cs with
  | nil =>
    refine .inr ⟨[], .lastEscape, ?_⟩
    rcases hrest with rfl | ⟨more, rfl⟩
    · obtain ⟨fuel, hfuel, hread⟩ := h
      obtain ⟨fuel, rfl⟩ : ∃ n, fuel = n + 1 := ⟨fuel - 1, by simp at hfuel; omega⟩
      cases hread
    · exact .inr ⟨more, rfl, h.step (Nat.lt_succ_of_lt (Nat.lt_succ_self _)) fun fuel =>
        readTokens_escape fuel _ _ '/' more⟩
  | cons c cs =>
    refine .inl ⟨[.literal c], cs, c, Nat.lt_succ_of_lt (Nat.lt_succ_self _), fun d hd => ?_,
      .escape, h.step (Nat.lt_succ_of_lt (Nat.lt_succ_self _)) fun fuel => ?_, ?_,
      hcloses.step (Nat.lt_succ_of_lt (Nat.lt_succ_self _)) fun fuel _ _ =>
        ⟨_, _, readTokens_escape fuel _ _ c cs⟩⟩
    · exact List.mem_cons_of_mem _ (List.mem_cons_of_mem _ hd)
    · exact readTokens_escape fuel tokens before c (cs ++ rest)
    · exact fun he => hslash (he ▸ List.mem_cons_self)

/-- The first step into a segment: it reads a piece of it, or all that there is. -/
theorem Reads.segment_cases (h : Reads tokens before (cs ++ rest) result)
    (hslash : '/' ∉ cs) (hcloses : ClosesClasses cs)
    (hrest : rest = [] ∨ ∃ more, rest = '/' :: more) (hne : tokens ≠ [])
    (hdeep : cs ≠ PathPattern.deep ∨ before ≠ some '/') :
    (∃ read remaining c, ReadsPiece cs rest tokens result read remaining c) ∨
      ∃ read, SegmentReads cs read ∧ ReadsBehind (read.reverse ++ tokens) rest result := by
  cases cs with
  | nil => exact .inr ⟨[], .nil, readsBehind_of_reads hrest h⟩
  | cons c cs =>
    have htail : '/' ∉ cs := fun hmem => hslash (List.mem_cons_of_mem c hmem)
    by_cases hchar : c ∉ special
    · -- a character that stands for itself
      refine .inl ⟨[.literal c], cs, c, Nat.lt_succ_self _, List.subset_cons_self c cs,
        .char hchar, h.step (Nat.lt_succ_self _) ?_, ?_, hcloses.step (Nat.lt_succ_self _) ?_⟩
      · exact fun fuel => readTokens_char fuel tokens before hchar (cs ++ rest)
      · exact fun he => hslash (he ▸ List.mem_cons_self)
      · exact fun fuel tokens before => ⟨_, _, readTokens_char fuel tokens before hchar cs⟩
    · simp only [special, List.mem_cons, List.not_mem_nil, or_false, Decidable.not_not] at hchar
      rcases hchar with rfl | rfl | rfl | rfl
      · exact h.star_cases htail hcloses hrest hne hdeep
      · refine .inl ⟨[.anyOne], cs, '?', Nat.lt_succ_self _, List.subset_cons_self _ cs,
          .question, h.step (Nat.lt_succ_self _) ?_, by decide,
          hcloses.step (Nat.lt_succ_self _) ?_⟩
        · exact fun fuel => readTokens_question fuel tokens before (cs ++ rest)
        · exact fun fuel tokens before => ⟨_, _, readTokens_question fuel tokens before cs⟩
      · exact .inl (h.bracket_cases hcloses)
      · exact h.escape_cases htail hcloses hrest

end Cases

/-- **A segment other than `**` reads on its own**, and reading goes on behind it. -/
theorem Reads.segment {cs rest : List Char} (h : Reads tokens before (cs ++ rest) result)
    (hslash : '/' ∉ cs) (hcloses : ClosesClasses cs)
    (hrest : rest = [] ∨ ∃ more, rest = '/' :: more) (hne : tokens ≠ [])
    (hdeep : cs ≠ PathPattern.deep ∨ before ≠ some '/') :
    ∃ read, SegmentReads cs read ∧ ReadsBehind (read.reverse ++ tokens) rest result := by
  -- by the length of the segment, since two stars and a class are more than one character
  induction hn : cs.length using Nat.strongRecOn generalizing cs tokens before with
  | ind n ih =>
    subst hn
    rcases h.segment_cases hslash hcloses hrest hne hdeep with ⟨read, remaining, c, piece⟩ | done
    · obtain ⟨more, hmore, hbehind⟩ := ih remaining.length piece.length_lt piece.reads
        (fun hmem => hslash (piece.subset hmem)) piece.closes
        (List.append_ne_nil_of_right_ne_nil _ hne)
        (.inr fun he => piece.ne_slash (Option.some.inj he)) rfl
      refine ⟨read ++ more, piece.extend hmore, ?_⟩
      rwa [List.reverse_append, List.append_assoc]
    · exact done

/-! ### Paths -/

/-- **How the segments of a path read.**  The token `lead` stands for what comes before the first of
them: a slash, or `**` between two slashes. -/
inductive PathReads : Token → List (List Char) → List Token → Prop where
  | nil {lead} : PathReads lead [] []
  | lastDeep {lead} : PathReads lead [PathPattern.deep] [.deepEnd]
  | deep {lead segments tokens} : segments ≠ [] → PathReads .deepBetween segments tokens →
      PathReads lead (PathPattern.deep :: segments) tokens
  | segment {lead cs segments read tokens} : cs ≠ PathPattern.deep → SegmentReads cs read →
      PathReads (.literal '/') segments tokens →
      PathReads lead (cs :: segments) (lead :: read ++ tokens)

/-- `**` takes up what stands for the slash before it. -/
theorem addDeep_lead {lead : Token} (hlead : lead = .literal '/' ∨ lead = .deepBetween)
    (tokens : List Token) (last : Bool) :
    addDeep (lead :: tokens) (some '/') true last =
      (if last then .deepEnd else .deepBetween) :: tokens := by
  rcases hlead with rfl | rfl <;> rfl

/-- The last segment of a path. -/
theorem exists_pathReads_singleton {lead : Token} {cs : List Char} {tokens result : List Token}
    (h : Reads (lead :: tokens) (some '/') cs result)
    (hlead : lead = .literal '/' ∨ lead = .deepBetween) (hslash : '/' ∉ cs)
    (hcloses : ClosesClasses cs) :
    ∃ read, PathReads lead [cs] read ∧ result = tokens.reverse ++ read := by
  by_cases hdeep : cs = PathPattern.deep
  · subst hdeep
    have last : Reads (.deepEnd :: tokens) (some '*') [] result :=
      h.step (by decide) fun fuel => by
        rw [PathPattern.deep, readTokens_lastStars, addDeep_lead hlead, readTokens_nil]
        rfl
    exact ⟨[.deepEnd], .lastDeep, (reads_nil last).trans List.reverse_cons⟩
  · rw [← List.append_nil cs] at h
    obtain ⟨read, hread, hbehind⟩ := h.segment hslash hcloses (.inl rfl)
      (List.cons_ne_nil lead tokens) (.inl hdeep)
    obtain ⟨-, rfl⟩ | ⟨more, hmore, -⟩ := hbehind
    · refine ⟨lead :: read ++ [], .segment hdeep hread .nil, ?_⟩
      simp
    · cases hmore

/-- **Reading a path segment by segment**, with the token for what comes before read already. -/
theorem exists_pathReads_of_reads {lead : Token} {segments : List (List Char)}
    {tokens result : List Token}
    (h : Reads (lead :: tokens) (some '/') (Text.joinWith ['/'] segments) result)
    (hlead : lead = .literal '/' ∨ lead = .deepBetween) (hne : segments ≠ [])
    (hslash : ∀ cs ∈ segments, '/' ∉ cs) (hcloses : ∀ cs ∈ segments, ClosesClasses cs) :
    ∃ read, PathReads lead segments read ∧ result = tokens.reverse ++ read := by
  induction segments generalizing lead tokens with
  | nil => exact absurd rfl hne
  | cons cs segments ih =>
    obtain ⟨hcs, hothers⟩ := List.forall_mem_cons.mp hslash
    obtain ⟨hcsCloses, hothersClose⟩ := List.forall_mem_cons.mp hcloses
    cases segments with
    | nil => exact exists_pathReads_singleton h hlead hcs hcsCloses
    | cons next segments =>
      have hnext : next :: segments ≠ [] := List.cons_ne_nil next segments
      rw [show Text.joinWith ['/'] (cs :: next :: segments) =
        cs ++ ['/'] ++ Text.joinWith ['/'] (next :: segments) from rfl, List.append_assoc] at h
      by_cases hdeep : cs = PathPattern.deep
      · subst hdeep
        have between : Reads (.deepBetween :: tokens) (some '/')
            (Text.joinWith ['/'] (next :: segments)) result :=
          h.step (by simp [PathPattern.deep]; omega) fun fuel => by
            rw [show PathPattern.deep ++ (['/'] ++ Text.joinWith ['/'] (next :: segments)) =
              '*' :: '*' :: '/' :: Text.joinWith ['/'] (next :: segments) from rfl,
              readTokens_stars_slash, addDeep_lead hlead]
            rfl
        obtain ⟨read, hread, rfl⟩ := ih between (.inr rfl) hnext hothers hothersClose
        exact ⟨read, .deep hnext hread, rfl⟩
      · obtain ⟨first, hfirst, hbehind⟩ := h.segment hcs hcsCloses (.inr ⟨_, rfl⟩)
          (List.cons_ne_nil lead tokens) (.inl hdeep)
        obtain ⟨hmore, -⟩ | ⟨more, hmore, hreads⟩ := hbehind
        · cases hmore
        · obtain rfl := (List.cons.inj hmore).2
          obtain ⟨read, hread, rfl⟩ := ih hreads (.inl rfl) hnext hothers hothersClose
          refine ⟨lead :: first ++ read, .segment hdeep hfirst hread, ?_⟩
          simp

/-- **How a path reads**, all of whose segments close their classes. -/
theorem pathReads_of_parse {segments : List (List Char)} {tokens : List Token}
    (h : parse (PathPattern.path segments) = .ok tokens) (hne : segments ≠ [])
    (hslash : ∀ cs ∈ segments, '/' ∉ cs) (hcloses : ∀ cs ∈ segments, ClosesClasses cs) :
    PathReads (.literal '/') segments tokens := by
  have start : Reads [] none (PathPattern.path segments) tokens := ⟨_, Nat.le_refl _, h⟩
  obtain ⟨read, hread, rfl⟩ := exists_pathReads_of_reads start.slash (.inl rfl) hne hslash hcloses
  exact hread

end Glob
end RouteBook
