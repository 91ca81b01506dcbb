import RouteBook.Proofs.Doc.EmptyLines
/-! # Comments in several attributes

A comment may be spread over several attributes, one chunk of text in each.  The chunks are cut into
lines one by one, and a chunk that is empty or ends with a line feed (`EndsOpen`) has no line behind
its last line feed.  In the joined text there is such a line, an empty one, in front of the next chunk.
So the comment in chunks is the joined text without these empty lines (`spaced_shown`).

Nothing else is lost, the tags are the same, and so are the words of the description.  The two comments
are equal iff none of these chunks ends in the midst of the description (`ofChunks_eq_parse_iff`).  The
proof goes through the chunks from the front: what the lines before a chunk say is the same in either
text, so at each chunk only one empty line is in question.
-/
namespace RouteBook

open Text

namespace DocComment

/-- A text behind which an empty line begins: it is empty or ends with a line feed. -/
def EndsOpen (text : List Char) : Prop := ∀ c ∈ text.getLast?, c = '\n'

/-- The trimmed lines of a chunk. -/
def shown (chunk : String) : List (List Char) := (lines chunk.toList).map trim

/-- The trimmed pieces of a chunk between its line feeds. -/
def piecesOf (chunk : String) : List (List Char) := (splitAt '\n' chunk.toList).map trim

/-! ### Lines and pieces -/

theorem trim_dropCarriageReturn (piece : List Char) : trim (dropCarriageReturn piece) = trim piece := by
  unfold dropCarriageReturn
  split
  · rename_i last
    obtain ⟨front, rfl⟩ := List.getLast?_eq_some_iff.mp last
    rw [List.dropLast_concat, trim_of_append_isBlankText front (by decide)]
  · rfl

/-- The last piece of a text is empty iff the text ends open. -/
theorem endsOpen_iff {text : List Char} {front : List (List Char)} {last : List Char}
    (h : splitAt '\n' text = front ++ [last]) : EndsOpen text ↔ last = [] := by
  have text_eq := joinWith_splitAt '\n' text
  rw [h] at text_eq
  constructor
  · intro ends
    cases hlast : last.getLast? with
    | none => exact List.getLast?_eq_none_iff.mp hlast
    | some c =>
      -- the last character of the text is in the last piece, and no line feed is
      have inLast := List.mem_of_getLast? hlast
      have lineFeed := notMem_of_mem_splitAt
        (show last ∈ splitAt '\n' text by rw [h]; exact List.mem_append_right _ List.mem_cons_self)
      have ofText : text.getLast? = some c := by
        rw [← text_eq]
        cases front with
        | nil => exact hlast
        | cons piece front =>
          rw [joinWith_append _ (List.cons_ne_nil _ _) (List.cons_ne_nil _ _), joinWith,
            List.getLast?_append, hlast]
          rfl
      rw [ends c ofText] at inLast
      exact absurd inLast lineFeed
  · rintro rfl c hc
    rw [← text_eq] at hc
    cases front with
    | nil => cases hc
    | cons piece front =>
      rw [joinWith_append _ (List.cons_ne_nil _ _) (List.cons_ne_nil _ _), joinWith, List.append_nil,
        List.getLast?_append] at hc
      cases hc
      rfl

theorem piecesOf_of_endsOpen {chunk : String} (h : EndsOpen chunk.toList) :
    piecesOf chunk = shown chunk ++ [[]] := by
  obtain ⟨front, last, pieces⟩ := exists_splitAt_eq_concat '\n' chunk.toList
  have empty := (endsOpen_iff pieces).mp h
  rw [piecesOf, shown, lines_of_splitAt pieces, pieces, empty, List.map_append, List.map_append,
    List.map_map, show trim ∘ dropCarriageReturn = trim from funext trim_dropCarriageReturn]
  exact congrArg (· ++ [[]]) (List.append_nil _).symm

theorem piecesOf_of_not_endsOpen {chunk : String} (h : ¬EndsOpen chunk.toList) :
    piecesOf chunk = shown chunk := by
  obtain ⟨front, last, pieces⟩ := exists_splitAt_eq_concat '\n' chunk.toList
  have full : last ≠ [] := fun empty => h ((endsOpen_iff pieces).mpr empty)
  rw [piecesOf, shown, lines_of_splitAt pieces, pieces, List.map_append, List.map_append,
    List.map_map, show trim ∘ dropCarriageReturn = trim from funext trim_dropCarriageReturn,
    List.filter_cons_of_pos (by simpa using full), List.filter_nil]

theorem spaced_shown (chunks : List String) :
    Spaced (chunks.flatMap shown) (chunks.flatMap piecesOf) := by
  induction chunks with
  | nil => exact .nil
  | cons chunk chunks ih =>
    rw [List.flatMap_cons, List.flatMap_cons]
    refine Spaced.append ?_ ih
    by_cases h : EndsOpen chunk.toList
    · have padded := (Spaced.refl (shown chunk)).append (.empty .nil)
      rwa [List.append_nil, ← piecesOf_of_endsOpen h] at padded
    · rw [piecesOf_of_not_endsOpen h]
      exact .refl _

/-- An empty line at the very end is of no account. -/
theorem ofLines_concat (lines : List (List Char)) : ofLines (lines ++ [[]]) = ofLines lines := by
  refine ofLines_eq_iff.mpr ⟨?_, ?_⟩
  · have padded := (Spaced.refl lines).append (.empty .nil)
    rw [List.append_nil] at padded
    exact padded.tagsOf_eq.symm
  · have last : ¬Interrupts lines [] := fun h => h.goesOn rfl
    rw [freeText_of_not_interrupts last, List.append_nil]

/-- A comment is read off the pieces between its line feeds as well as off its lines. -/
theorem parse_eq_ofPieces (text : String) : parse text.toList = ofLines (piecesOf text) := by
  by_cases h : EndsOpen text.toList
  · rw [piecesOf_of_endsOpen h, ofLines_concat]
    rfl
  · rw [piecesOf_of_not_endsOpen h]
    rfl

theorem splitAt_joined {texts : List (List Char)} (ne : texts ≠ []) :
    splitAt '\n' (joinWith ['\n'] texts) = texts.flatMap (splitAt '\n') := by
  induction texts with
  | nil => exact absurd rfl ne
  | cons text texts ih =>
    cases texts with
    | nil => exact (List.append_nil _).symm
    | cons next texts =>
      rw [joinWith_cons _ _ (List.cons_ne_nil next texts), List.append_assoc, List.singleton_append,
        splitAt_append_cons, ih (List.cons_ne_nil next texts), ← List.flatMap_cons]

/-- The comment in chunks, line by line. -/
theorem ofChunks_eq_ofLines (chunks : List String) :
    ofChunks chunks = ofLines (chunks.flatMap shown) := by
  let texts := chunks.flatMap fun chunk => lines chunk.toList
  have text := parse_eq_ofPieces (String.ofList (joinWith ['\n'] texts))
  rw [piecesOf, String.toList_ofList] at text
  have shownLines : texts.map trim = chunks.flatMap shown := List.map_flatMap
  by_cases ne : texts = []
  · rw [ofChunks, text, ← shownLines, ne]
    exact ofLines_concat []
  · rw [ofChunks, text, ← shownLines, splitAt_joinWith ne]
    intro line hline
    obtain ⟨chunk, -, inChunk⟩ := List.mem_flatMap.mp hline
    exact lineFeed_notMem_of_mem_lines inChunk

/-- The joined comment, piece by piece. -/
theorem parse_joined_eq_ofLines (chunks : List String) :
    parse (joined "\n" chunks).toList = ofLines (chunks.flatMap piecesOf) := by
  rw [parse_eq_ofPieces, piecesOf, joined, String.toList_ofList]
  by_cases ne : chunks = []
  · rw [ne]
    exact ofLines_concat []
  · rw [show "\n".toList = ['\n'] from rfl, splitAt_joined (by simpa using ne), List.flatMap_map,
      List.map_flatMap]
    rfl

/-! ### One chunk after the other -/

/-- The first element of a list is a place to split it at, and the other places are in the rest. -/
theorem forall_split_cons {α : Type} {motive : List α → α → List α → Prop} {a : α} {as : List α} :
    (∀ before b after, a :: as = before ++ b :: after → motive before b after) ↔
      motive [] a as ∧
        ∀ before b after, as = before ++ b :: after → motive (a :: before) b after := by
  constructor
  · intro h
    exact ⟨h [] a as rfl, fun before b after same => h (a :: before) b after (by rw [same]; rfl)⟩
  · rintro ⟨first, others⟩ before b after same
    cases before with
    | nil =>
      obtain ⟨rfl, rfl⟩ := List.cons.inj same
      exact first
    | cons c before =>
      obtain ⟨rfl, rest⟩ := List.cons.inj same
      exact others before b after rest

/-- One empty line, and any number of others behind it. -/
theorem freeText_append_empty_iff (front : List (List Char)) {few all : List (List Char)}
    (spaced : Spaced few all) :
    freeText (front ++ few) = freeText (front ++ [] :: all) ↔
      freeText (front ++ few) = freeText (front ++ all) ∧ ¬Interrupts front few := by
  by_cases inside : Interrupts front few
  · -- the text with all empty lines is longer by this one
    have longer := length_freeText_of_interrupts (spaced.interrupts_iff.mp inside)
    have least := ((Spaced.refl front).append spaced).freeText_sublist.length_le
    refine iff_of_false (fun same => ?_) fun h => h.2 inside
    rw [same] at least
    omega
  · rw [freeText_of_not_interrupts fun h => inside (spaced.interrupts_iff.mpr h),
      and_iff_left inside]

/-- Behind the same lines, the chunks and the joined text have the same description iff none of the
empty lines between the chunks interrupts it. -/
theorem freeText_append_eq_iff (front : List (List Char)) (chunks : List String) :
    freeText (front ++ chunks.flatMap shown) = freeText (front ++ chunks.flatMap piecesOf) ↔
      ∀ before chunk after, chunks = before ++ chunk :: after → EndsOpen chunk.toList →
        ¬Interrupts (front ++ (before ++ [chunk]).flatMap shown) (after.flatMap shown) := by
  induction chunks generalizing front with
  | nil => simp
  | cons chunk chunks ih =>
    have behind := ih (front ++ shown chunk)
    rw [forall_split_cons]
    simp only [List.cons_append, List.nil_append, List.flatMap_cons, List.flatMap_nil,
      List.append_nil, ← List.append_assoc] at behind ⊢
    rw [← behind]
    by_cases ends : EndsOpen chunk.toList
    · have spaced := freeText_append_empty_iff (front ++ shown chunk) (spaced_shown chunks)
      simp only [piecesOf_of_endsOpen ends, ends, true_implies, List.append_assoc,
        List.singleton_append] at spaced ⊢
      rw [spaced, and_comm]
    · simp only [piecesOf_of_not_endsOpen ends, ends, false_implies, true_and]

/-- The end of a chunk in the midst of the description: up to there the comment is nothing but a
description, and the chunks behind go on with it. -/
structure EndsInDescription (before : List String) (chunk : String) (after : List String) : Prop where
  untagged : (ofChunks (before ++ [chunk])).tags = []
  said : (ofChunks (before ++ [chunk])).description ≠ Option.none
  goesOn : (ofChunks after).description ≠ Option.none

theorem endsInDescription_iff {before after : List String} {chunk : String} :
    EndsInDescription before chunk after ↔
      Interrupts ((before ++ [chunk]).flatMap shown) (after.flatMap shown) := by
  have nothing : ∀ chunks : List String, (ofChunks chunks).description = Option.none ↔
      freeText (chunks.flatMap shown) = [] := fun chunks => by
    rw [ofChunks_eq_ofLines, description_ofLines_eq_none_iff]
  have tags : (ofChunks (before ++ [chunk])).tags = tagsOf ((before ++ [chunk]).flatMap shown) := by
    rw [ofChunks_eq_ofLines]
    rfl
  constructor
  · rintro ⟨untagged, said, goesOn⟩
    exact ⟨tags ▸ untagged, fun h => said ((nothing _).mpr h), fun h => goesOn ((nothing _).mpr h)⟩
  · rintro ⟨untagged, said, goesOn⟩
    exact ⟨tags ▸ untagged, fun h => said ((nothing _).mp h), fun h => goesOn ((nothing _).mp h)⟩

/-- **A comment in chunks says what the joined text says, but for empty lines of the description.**  The
tags are the same, and so are the words of the description.  The two are equal iff no chunk that is
empty or ends with a line feed ends in the midst of the description. -/
theorem ofChunks_eq_parse_iff (chunks : List String) :
    (ofChunks chunks).tags = (parse (joined "\n" chunks).toList).tags ∧
      (((ofChunks chunks).description.elim [] fun d => words d.toList) =
        (parse (joined "\n" chunks).toList).description.elim [] fun d => words d.toList) ∧
      (ofChunks chunks = parse (joined "\n" chunks).toList ↔
        ∀ before chunk after, chunks = before ++ chunk :: after → EndsOpen chunk.toList →
          ¬EndsInDescription before chunk after) := by
  have spaced := spaced_shown chunks
  refine ⟨?_, ?_, ?_⟩
  · rw [ofChunks_eq_ofLines, parse_joined_eq_ofLines]
    exact spaced.tagsOf_eq
  · rw [ofChunks_eq_ofLines, parse_joined_eq_ofLines, words_ofLines, words_ofLines,
      spaced.words_freeText_eq]
  · have said := freeText_append_eq_iff [] chunks
    rw [List.nil_append, List.nil_append] at said
    rw [ofChunks_eq_ofLines, parse_joined_eq_ofLines, ofLines_eq_iff, and_iff_right spaced.tagsOf_eq,
      said]
    simp only [endsInDescription_iff, List.nil_append]

/-- An empty chunk between two paragraphs does not part them. -/
theorem paragraphs_run_together :
    ¬∀ chunks : List String, ofChunks chunks = parse (joined "\n" chunks).toList := by
  intro same
  have paragraphs := same [" Manages users.", "", " Every user has an id."]
  exact absurd paragraphs (by decide +kernel)

end DocComment
end RouteBook
