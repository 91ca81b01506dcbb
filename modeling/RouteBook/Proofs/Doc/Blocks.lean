import Mathlib.Data.List.Forall2
import RouteBook.Doc.Comment
import RouteBook.Proofs.Text.Words
/-! # The blocks of a comment

The lines of a comment are laid out in free lines and then one block for each line that opens a tag:
that line and the lines up to the next one (`IsLaidOut`).  The free lines are the description.  Behind
the sign of a tag stand its name, which is a first word or, for a parameter, the word behind the word
`param`, and then its remainder (`Tag.Opens`); the lines of the block continue the remainder
(`TagBlock.IsReadAs`).

A word of the text is in a free line, in the remainder of a tag or in a line that continues it, or it
is the name of the tag, and taking a first word off a text leaves the other words (`FirstWord.words`).
So no word gets lost, and each is where it was among the others (`parse_keeps_words`).
-/
namespace RouteBook

open Text

/-! ### First words -/

/-- A first word and what is behind it, trimmed; a blank text has neither. -/
inductive FirstWord : List Char → List Char → List Char → Prop
  | none {cs : List Char} (blank : isBlankText cs = true) : FirstWord cs [] []
  | some {front word gap behind back : List Char} (hfront : isBlankText front = true)
      (ne : word ≠ []) (visible : ∀ c ∈ word, isBlank c = false) (hgap : isBlankText gap = true)
      (apart : behind ≠ [] → gap ≠ []) (trimmed : trim behind = behind)
      (hback : isBlankText back = true) :
      FirstWord (front ++ word ++ (gap ++ behind) ++ back) word behind

/-- A text that starts with a blank, if it has anything in it: what is left of it when trimmed stands
apart from what is in front. -/
theorem exists_gap {rest : List Char} (start : ∀ c ∈ rest.head?, isBlank c = true) :
    ∃ gap back, rest = gap ++ trim rest ++ back ∧ isBlankText gap = true ∧
      isBlankText back = true ∧ (trim rest ≠ [] → gap ≠ []) := by
  obtain ⟨gap, back, around, hgap, hback⟩ := exists_blanks_around rest
  refine ⟨gap, back, around, hgap, hback, fun more none => ?_⟩
  obtain ⟨c, cs, left⟩ := List.exists_cons_of_ne_nil more
  have visible := isBlank_head_trim rest c (by rw [left]; rfl)
  have blank := start c (by rw [around, none, left]; rfl)
  rw [visible] at blank
  cases blank

theorem firstWord_splitWord (cs : List Char) :
    FirstWord cs (Tag.splitWord cs).1 (Tag.splitWord cs).2 := by
  cases shown : trim cs with
  | nil =>
    rw [Tag.splitWord, shown]
    exact .none ((trim_eq_nil_iff cs).mp shown)
  | cons c shownRest =>
    let word := (trim cs).takeWhile (!isBlank ·)
    let rest := (trim cs).dropWhile (!isBlank ·)
    have parts : word ++ rest = trim cs := List.takeWhile_append_dropWhile
    have ne : word ≠ [] := by
      have start := isBlank_head_trim cs c (by rw [shown]; rfl)
      simp [word, shown, start]
    have visible : ∀ d ∈ word, isBlank d = false := fun d hd => by
      have left := List.all_eq_true.mp List.all_takeWhile d hd
      simpa using left
    have ends : ∀ d ∈ rest.head?, isBlank d = true := by
      intro d hd
      have stops := List.head?_dropWhile_not (!isBlank ·) (trim cs)
      rw [show (trim cs).dropWhile (!isBlank ·) = rest from rfl, show rest.head? = some d from hd]
        at stops
      simpa using stops
    obtain ⟨front, back, around, hfront, hback⟩ := exists_blanks_around cs
    obtain ⟨gap, tail, behind, hgap, htail, apart⟩ := exists_gap ends
    have text : cs = front ++ word ++ (gap ++ trim rest) ++ (tail ++ back) := by
      calc cs = front ++ (word ++ rest) ++ back := by rw [parts]; exact around
        _ = front ++ (word ++ (gap ++ trim rest ++ tail)) ++ back := by rw [← behind]
        _ = _ := by simp only [List.append_assoc]
    have ended : isBlankText (tail ++ back) = true := by
      rw [isBlankText_append, htail, hback]
      rfl
    have read := FirstWord.some hfront ne visible hgap apart (trim_trim rest) ended
    rw [← text] at read
    exact read

/-- **Taking its first word off a text leaves the other words.** -/
theorem FirstWord.words {cs word behind : List Char} (h : FirstWord cs word behind) :
    Text.words cs = Text.words word ++ Text.words behind := by
  cases h with
  | none blank => exact words_of_isBlankText blank
  | @some front word gap behind back hfront ne visible hgap apart trimmed hback =>
    have ends : ∀ c ∈ (gap ++ behind).head?, isBlank c = true := by
      intro c hc
      cases gap with
      | nil =>
        cases behind with
        | nil => cases hc
        | cons d behind => exact absurd rfl (apart (List.cons_ne_nil d behind))
      | cons d gap =>
        cases hc
        exact List.all_eq_true.mp hgap _ List.mem_cons_self
    rw [words_append_isBlankText _ hback, List.append_assoc, words_isBlankText_append hfront,
      words_append ends, words_isBlankText_append hgap]

/-! ### The layout of a comment -/

/-- A trimmed line that opens a tag. -/
def OpensTag (line : List Char) : Prop := line.head? = some '@'

/-- A tag as it is written, on trimmed lines: what is behind its sign, and the lines that follow. -/
structure TagBlock where
  rest : List Char
  continued : List (List Char)

def TagBlock.lines (block : TagBlock) : List (List Char) := ('@' :: block.rest) :: block.continued

/-- Trimmed lines as free lines and the blocks of tags behind them. -/
structure IsLaidOut (lines free : List (List Char)) (blocks : List TagBlock) : Prop where
  lines_eq : lines = free ++ blocks.flatMap TagBlock.lines
  free_plain : ∀ line ∈ free, ¬OpensTag line
  continued_plain : ∀ block ∈ blocks, ∀ line ∈ block.continued, ¬OpensTag line

/-- Every line either opens a block or goes in front of what is free behind it. -/
theorem exists_isLaidOut (lines : List (List Char)) :
    ∃ free blocks, IsLaidOut lines free blocks := by
  induction lines with
  | nil => exact ⟨[], [], rfl, by simp, by simp⟩
  | cons line lines ih =>
    obtain ⟨free, blocks, rfl, hfree, hblocks⟩ := ih
    by_cases opens : OpensTag line
    · obtain ⟨rest, rfl⟩ := List.head?_eq_some_iff.mp opens
      exact ⟨[], ⟨rest, free⟩ :: blocks, rfl, by simp, List.forall_mem_cons.mpr ⟨hfree, hblocks⟩⟩
    · exact ⟨line :: free, blocks, rfl, List.forall_mem_cons.mpr ⟨opens, hfree⟩, hblocks⟩

namespace DocComment

theorem tagLine?_eq_none_iff (line : List Char) : tagLine? line = Option.none ↔ ¬OpensTag line := by
  unfold tagLine? OpensTag
  split
  · simp
  · rename_i plain
    simp only [true_iff]
    intro opens
    obtain ⟨rest, same⟩ := List.head?_eq_some_iff.mp opens
    exact plain rest same

/-- The lines up to the first tag. -/
def freeLines (lines : List (List Char)) : List (List Char) :=
  lines.takeWhile fun l => (tagLine? l).isNone

theorem freeLines_opens (rest : List Char) (lines : List (List Char)) :
    freeLines (('@' :: rest) :: lines) = [] := rfl

/-- Lines that open no tag are free if they come first. -/
theorem freeLines_append {front : List (List Char)} (plain : ∀ line ∈ front, ¬OpensTag line)
    (back : List (List Char)) : freeLines (front ++ back) = front ++ freeLines back := by
  refine List.takeWhile_append_of_pos fun line hline => ?_
  rw [(tagLine?_eq_none_iff line).mpr (plain line hline)]
  rfl

theorem freeLines_cons {line : List Char} (plain : ¬OpensTag line) (lines : List (List Char)) :
    freeLines (line :: lines) = line :: freeLines lines :=
  @freeLines_append [line] (by simpa using plain) lines

/-- Lines in front of the first tag are passed over. -/
theorem tagsOf_append {front : List (List Char)} (plain : ∀ line ∈ front, ¬OpensTag line)
    (back : List (List Char)) : tagsOf (front ++ back) = tagsOf back := by
  induction front with
  | nil => rfl
  | cons line front ih =>
    obtain ⟨hline, hfront⟩ := List.forall_mem_cons.mp plain
    rw [List.cons_append, tagsOf, (tagLine?_eq_none_iff line).mpr hline]
    exact ih hfront

/-- A tag goes on up to the next one. -/
theorem tagsOf_opens (rest : List Char) (lines : List (List Char)) :
    tagsOf (('@' :: rest) :: lines) =
      (freeLines lines).foldl Tag.addLine (Tag.parse rest) :: tagsOf lines := by
  rw [tagsOf]
  rfl

end DocComment

/-- What is free is what stands in front of the blocks. -/
theorem IsLaidOut.freeLines_eq {lines free : List (List Char)} {blocks : List TagBlock}
    (h : IsLaidOut lines free blocks) : DocComment.freeLines lines = free := by
  rw [h.lines_eq, DocComment.freeLines_append h.free_plain]
  cases blocks with
  | nil => exact List.append_nil free
  | cons block blocks =>
    rw [List.flatMap_cons, TagBlock.lines, List.cons_append, DocComment.freeLines_opens,
      List.append_nil]

/-- The tag that is read off a block. -/
def TagBlock.tag (block : TagBlock) : Tag := block.continued.foldl Tag.addLine (Tag.parse block.rest)

/-- Each block gives one tag. -/
theorem IsLaidOut.tagsOf_eq {lines free : List (List Char)} {blocks : List TagBlock}
    (h : IsLaidOut lines free blocks) : DocComment.tagsOf lines = blocks.map TagBlock.tag := by
  obtain ⟨rfl, hfree, hblocks⟩ := h
  rw [DocComment.tagsOf_append hfree]
  clear hfree
  induction blocks with
  | nil => rfl
  | cons block blocks ih =>
    obtain ⟨hblock, hblocks⟩ := List.forall_mem_cons.mp hblocks
    have behind : IsLaidOut _ block.continued blocks := ⟨rfl, hblock, hblocks⟩
    rw [List.flatMap_cons, TagBlock.lines, List.cons_append, DocComment.tagsOf_opens,
      behind.freeLines_eq, DocComment.tagsOf_append hblock, ih hblocks]
    rfl

/-! ### The description -/

namespace DocComment

theorem isBlankText_lineFeed : isBlankText ['\n'] = true := by decide

/-- The free lines as one text, trimmed. -/
def freeText (lines : List (List Char)) : List Char := trim (joinWith ['\n'] (freeLines lines))

theorem words_freeText (lines : List (List Char)) :
    words (freeText lines) = (freeLines lines).flatMap words := by
  rw [freeText, words_trim, words_joinWith (by decide)]

/-- What a comment with the given trimmed lines says. -/
def ofLines (lines : List (List Char)) : DocComment where
  description := if freeText lines = [] then Option.none else some (String.ofList (freeText lines))
  tags := tagsOf lines

theorem parse_eq_ofLines (text : List Char) : parse text = ofLines ((lines text).map trim) := rfl

theorem description_ofLines_eq_none_iff {lines : List (List Char)} :
    (ofLines lines).description = Option.none ↔ freeText lines = [] := by
  unfold ofLines
  dsimp only
  split
  · rename_i nothing
    exact iff_of_true rfl nothing
  · rename_i something
    exact iff_of_false (by simp) something

theorem toList_of_mem_description {lines : List (List Char)} {d : String}
    (hd : d ∈ (ofLines lines).description) : d.toList = freeText lines := by
  unfold ofLines at hd
  dsimp only at hd
  split at hd
  · cases hd
  · cases hd
    exact String.toList_ofList

/-- The description has the words of the free lines. -/
theorem words_ofLines (lines : List (List Char)) :
    ((ofLines lines).description.elim [] fun d => words d.toList) = words (freeText lines) := by
  cases said : (ofLines lines).description with
  | none =>
    rw [description_ofLines_eq_none_iff.mp said]
    rfl
  | some d => rw [Option.elim_some, toList_of_mem_description said]

end DocComment

/-! ### Tags -/

/-- What is behind the sign of a tag: its kind, its name and its remainder. -/
inductive Tag.Opens : List Char → TagKind → List Char → List Char → Prop
  | named {rest name remainder : List Char} (first : FirstWord rest name remainder)
      (other : name ≠ "param".toList) : Opens rest .named name remainder
  | param {rest behind name remainder : List Char} (first : FirstWord rest "param".toList behind)
      (second : FirstWord behind name remainder) : Opens rest .param name remainder

theorem Tag.opens_parse (rest : List Char) :
    Opens rest (parse rest).kind (parse rest).name.toList (parse rest).content.toList := by
  have first := firstWord_splitWord rest
  unfold parse
  dsimp only
  split
  · rename_i isParam
    rw [isParam] at first
    simpa only [String.toList_ofList] using Opens.param first (firstWord_splitWord _)
  · rename_i other
    simpa only [String.toList_ofList] using Opens.named first other

/-- A tag as it is written in a block: the remainder behind its name and the lines that follow, those
with anything in them, with a blank between any two. -/
def TagBlock.IsReadAs (block : TagBlock) (tag : Tag) : Prop :=
  ∃ remainder, Tag.Opens block.rest tag.kind tag.name.toList remainder ∧
    tag.content.toList = joinWith [' '] ((remainder :: block.continued).filter (· ≠ []))

theorem joinWith_cons_cons (between first second : List Char) (rest : List (List Char)) :
    joinWith between (first :: second :: rest) =
      joinWith between ((first ++ between ++ second) :: rest) := by
  cases rest with
  | nil => rfl
  | cons next rest => simp [joinWith]

/-- Lines that continue a tag are added to its content and to nothing else. -/
theorem Tag.foldl_addLine (tag : Tag) (lines : List (List Char)) :
    (lines.foldl addLine tag).kind = tag.kind ∧ (lines.foldl addLine tag).name = tag.name ∧
      (lines.foldl addLine tag).content.toList =
        joinWith [' '] ((tag.content.toList :: lines).filter (· ≠ [])) := by
  induction lines generalizing tag with
  | nil =>
    refine ⟨rfl, rfl, ?_⟩
    by_cases empty : tag.content.toList = []
    · simp [empty, joinWith]
    · simp [empty, joinWith]
  | cons line lines ih =>
    rw [List.foldl_cons]
    obtain ⟨kind, name, content⟩ := ih (tag.addLine line)
    rw [kind, name, content]
    unfold addLine
    by_cases hline : line = []
    · simp [hline, List.filter_cons]
    · by_cases empty : tag.content = ""
      · simp [hline, empty]
      · have ne : tag.content.toList ≠ [] := fun none => empty (String.toList_eq_nil_iff.mp none)
        have text : (tag.content ++ " " ++ String.ofList line).toList =
            tag.content.toList ++ [' '] ++ line := by
          rw [String.toList_append, String.toList_append, String.toList_ofList, String.toList_ofList]
        simp only [if_neg hline, if_neg empty, text, true_and]
        simp [hline, ne, joinWith_cons_cons]

theorem TagBlock.isReadAs_tag (block : TagBlock) : block.IsReadAs block.tag := by
  obtain ⟨kind, name, content⟩ := Tag.foldl_addLine (Tag.parse block.rest) block.continued
  refine ⟨(Tag.parse block.rest).content.toList, ?_, content⟩
  rw [TagBlock.tag, kind, name]
  exact Tag.opens_parse block.rest

/-! ### The words of a comment -/

/-- Those words of a line that a comment keeps: the sign of a tag is dropped, and so is the word
`param` behind it. -/
def keptWords : List (List Char) → List (List Char)
  | ('@' :: word) :: rest =>
    let behind := [word].filter (· ≠ []) ++ rest
    if behind.head? = some "param".toList then behind.tail else behind
  | words => words

/-- A line that opens no tag has its words kept. -/
theorem keptWords_of_plain {line : List Char} (start : ∀ c ∈ line.head?, isBlank c = false)
    (plain : ¬OpensTag line) : keptWords (words line) = words line := by
  cases line with
  | nil => rfl
  | cons c cs =>
    obtain ⟨word, rest, shown, -⟩ := exists_words_cons (start c rfl) cs
    rw [shown]
    unfold keptWords
    split
    · rename_i same
      cases same
      exact absurd rfl plain
    · rfl

theorem keptWords_cons (rest : List Char) :
    keptWords (words ('@' :: rest)) =
      if (words rest).head? = some "param".toList then (words rest).tail else words rest := by
  obtain ⟨word, ws, shown, behind⟩ := exists_words_cons (show isBlank '@' = false by decide) rest
  rw [shown, behind]
  rfl

/-- The words of a line that opens a tag are its name and those of its remainder. -/
theorem Tag.Opens.words {rest name remainder : List Char} {kind : TagKind}
    (h : Opens rest kind name remainder) :
    keptWords (Text.words ('@' :: rest)) = Text.words name ++ Text.words remainder := by
  rw [keptWords_cons]
  cases h with
  | named first other =>
    rw [first.words]
    cases first with
    | none blank => rfl
    | some hfront ne visible hgap apart trimmed hback =>
      -- the name comes first, and it is not the word that is dropped
      have single : Text.words name = [name] := by
        rw [words_of_not_isBlank visible]
        simp [ne]
      rw [single, List.singleton_append, List.head?_cons, if_neg (by simpa using other)]
  | param first second =>
    have single : Text.words "param".toList = ["param".toList] := by decide
    rw [first.words, single, List.singleton_append, List.head?_cons, if_pos rfl, List.tail_cons]
    exact second.words

example : keptWords (words "@param id the user".toList) = words "id the user".toList := by decide

theorem TagBlock.IsReadAs.words {block : TagBlock} {tag : Tag} (h : block.IsReadAs tag) :
    keptWords (Text.words ('@' :: block.rest)) ++ block.continued.flatMap Text.words =
      Text.words tag.name.toList ++ Text.words tag.content.toList := by
  obtain ⟨remainder, opens, content⟩ := h
  rw [opens.words, content, words_joinWith (by decide), flatMap_words_filter, List.flatMap_cons,
    List.append_assoc]

/-- The words that are kept of the lines of a comment, block by block. -/
theorem IsLaidOut.keptWords_eq {lines free : List (List Char)} {blocks : List TagBlock}
    (h : IsLaidOut lines free blocks) (trimmed : ∀ line ∈ lines, trim line = line) :
    lines.flatMap (fun line => keptWords (words line)) =
      free.flatMap words ++
        blocks.flatMap fun block =>
          words block.tag.name.toList ++ words block.tag.content.toList := by
  obtain ⟨rfl, hfree, hblocks⟩ := h
  have plain : ∀ ls : List (List Char), (∀ line ∈ ls, trim line = line) →
      (∀ line ∈ ls, ¬OpensTag line) →
      ls.flatMap (fun line => keptWords (words line)) = ls.flatMap words := by
    intro ls shown plain
    refine List.flatMap_congr fun line hline => keptWords_of_plain ?_ (plain line hline)
    rw [← shown line hline]
    exact isBlank_head_trim line
  rw [List.flatMap_append, plain free (fun line hline => trimmed line (List.mem_append_left _ hline))
    hfree, List.flatMap_assoc]
  congr 1
  refine List.flatMap_congr fun block hblock => ?_
  have continued : ∀ line ∈ block.continued, trim line = line := fun line hline =>
    trimmed line (List.mem_append_right _
      (List.mem_flatMap.mpr ⟨block, hblock, List.mem_cons_of_mem _ hline⟩))
  rw [TagBlock.lines, List.flatMap_cons, plain block.continued continued (hblocks block hblock)]
  exact block.isReadAs_tag.words

namespace DocComment

theorem trim_of_mem_map_trim (lines : List (List Char)) :
    ∀ line ∈ lines.map trim, trim line = line := by
  intro line hline
  obtain ⟨raw, -, rfl⟩ := List.mem_map.mp hline
  exact trim_trim raw

/-- Trimmed lines have nothing in them together iff none of them has. -/
theorem trim_joinWith_eq_nil_iff {free : List (List Char)}
    (trimmed : ∀ line ∈ free, trim line = line) :
    trim (joinWith ['\n'] free) = [] ↔ ∀ line ∈ free, line = [] := by
  rw [trim_eq_nil_iff, isBlankText_joinWith_iff isBlankText_lineFeed]
  refine forall₂_congr fun line hline => ?_
  rw [← trim_eq_nil_iff, trimmed line hline]

/-- **A comment says all that its text says, and in the same order.**  The lines of a text are laid out
in free lines and blocks, and each block is read as a tag, in order.  There is a description iff
something is in the free lines, and it is these lines.  The words of the text, less the signs of tags
and the word `param` behind a sign, are those of the description and then, for each tag in turn, its
name and the words of its content. -/
theorem parse_keeps_words (text : List Char) :
    ∃ free blocks,
      IsLaidOut ((lines text).map trim) free blocks ∧
      List.Forall₂ TagBlock.IsReadAs blocks (parse text).tags ∧
      ((parse text).description = Option.none ↔ ∀ line ∈ free, line = []) ∧
      (∀ d ∈ (parse text).description, d.toList = trim (joinWith ['\n'] free)) ∧
      words text = (lines text).flatMap words ∧
      (lines text).flatMap (fun line => keptWords (words line)) =
        ((parse text).description.elim [] fun d => words d.toList) ++
          (parse text).tags.flatMap fun tag => words tag.name.toList ++ words tag.content.toList := by
  obtain ⟨free, blocks, layout⟩ := exists_isLaidOut ((lines text).map trim)
  have trimmed := trim_of_mem_map_trim (lines text)
  have said : freeText ((lines text).map trim) = trim (joinWith ['\n'] free) := by
    rw [freeText, layout.freeLines_eq]
  rw [parse_eq_ofLines]
  have tags : (ofLines ((lines text).map trim)).tags = blocks.map TagBlock.tag := layout.tagsOf_eq
  refine ⟨free, blocks, layout, ?_, ?_, ?_, words_eq_flatMap_lines text, ?_⟩
  · rw [tags, List.forall₂_map_right_iff, List.forall₂_same]
    exact fun block _ => block.isReadAs_tag
  · rw [description_ofLines_eq_none_iff, said]
    refine trim_joinWith_eq_nil_iff fun line hline => trimmed line ?_
    rw [layout.lines_eq]
    exact List.mem_append_left _ hline
  · intro d hd
    rw [toList_of_mem_description hd, said]
  · have kept := layout.keptWords_eq trimmed
    rw [List.flatMap_map] at kept
    simp only [words_trim] at kept
    rw [words_ofLines, words_freeText, layout.freeLines_eq, tags, List.flatMap_map, kept]

end DocComment
end RouteBook
