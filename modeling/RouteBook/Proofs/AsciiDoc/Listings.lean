import RouteBook.AsciiDoc.Page
import RouteBook.Extract.Build
import RouteBook.Proofs.AsciiDoc.Writing
import RouteBook.Proofs.Doc.Tags
import RouteBook.Proofs.Json.Lines
import RouteBook.Proofs.Spring.Heading
/-! # Where listings end

A listing stands between two fences and ends at the first line inside of it that looks like one
(`fences_listing_iff`).  Its lines are written as they are, so a text that has several lines gives
several lines of the listing.

Samples are harmless: every line of a JSON text has something else than dashes to show, and strings stay
on their lines (`noFence_of_mem_linesOf_sample`).  So are the remarks behind the headers, which are on
one line behind the word `header` (`noFence_headerLine`).  That leaves the request line and the headers
themselves, with whatever their routes, keys and values hold (`fences_requestListing_iff`,
`fences_responseListing_iff`).
-/
namespace RouteBook

open Text

/-! ### Fences -/

namespace Markup

/-- How many lines of a text are the fence of a listing. -/
def fences (text : String) : Nat := (splitAt '\n' text.toList).count listingFence.toList

/-- No line of the text is the fence of a listing. -/
def NoFence (text : String) : Prop := listingFence.toList ∉ splitAt '\n' text.toList

instance (text : String) : Decidable (NoFence text) :=
  inferInstanceAs (Decidable (listingFence.toList ∉ splitAt '\n' text.toList))

/-- A single line that shows something besides dashes is no fence. -/
theorem noFence_of_hasMark {text : String} (single : '\n' ∉ text.toList)
    (mark : HasMark text.toList) : NoFence text := by
  rw [NoFence, splitAt_eq_singleton single, List.mem_singleton]
  intro fence
  rw [← fence] at mark
  exact absurd mark (by decide)

/-- **A listing has no fence but its own two** iff none of its lines has one. -/
theorem fences_listing_iff {language : String} (plain : NoFence (languageLine language))
    {lines : List String} :
    fences (blockText (.listing language lines)) = 2 ↔ ∀ line ∈ lines, NoFence line := by
  have pieces : splitAt '\n' (blockText (.listing language lines)).toList =
      splitAt '\n' (languageLine language).toList ++ listingFence.toList ::
        (lines.flatMap (fun line => splitAt '\n' line.toList) ++
          [listingFence.toList, [], []]) := by
    rw [blockText, splitAt_unlines, List.flatMap_cons, List.flatMap_cons, List.flatMap_append]
    simp only [List.append_assoc]
    rfl
  rw [fences, pieces, List.count_append, List.count_eq_zero.mpr plain, List.count_cons_self,
    List.count_append, show [listingFence.toList, [], []].count listingFence.toList = 1 by decide]
  have none_inside : (lines.flatMap fun line =>
      splitAt '\n' line.toList).count listingFence.toList = 0 ↔ ∀ line ∈ lines, NoFence line := by
    rw [List.count_eq_zero, List.mem_flatMap]
    constructor
    · exact fun h line hline fence => h ⟨line, hline, fence⟩
    · rintro h ⟨line, hline, fence⟩
      exact h line hline fence
  rw [← none_inside]
  omega

end Markup

/-! ### Lines of a page -/

namespace Page

open Markup

def requestListing (e : Endpoint) : String := blockText (.listing "HTTP" (requestLines e))

def responseListing (e : Endpoint) : String := blockText (.listing "JSON" (responseLines e))

/-- An endpoint is written with a listing for the request and one for the response. -/
theorem foldl_write_endpoint (content : String) (e : Endpoint) :
    (endpoint e).foldl write content =
      content ++ Markup.text [.title 2 e.name, .paragraph e.description, .title 4 "request"] ++
        requestListing e ++ Markup.text [table e.requestRows, .title 4 "response"] ++
        responseListing e ++ Markup.text [table e.responseRows] := by
  simp only [Markup.text, endpoint, foldl_write_eq, List.map_cons, List.map_nil, String.join_cons,
    String.join_nil, String.append_assoc, String.empty_append, String.append_empty, requestListing,
    responseListing]

/-- The lines of a sample are no fences. -/
theorem noFence_of_mem_linesOf_sample {sample : Option Json} {line : String}
    (h : line ∈ linesOf (Endpoint.sampleText sample)) : NoFence line := by
  obtain ⟨chars, hchars, rfl⟩ := List.mem_map.mp h
  have single := lineFeed_notMem_of_mem_lines hchars
  rw [← String.toList_ofList (l := chars)] at single
  refine noFence_of_hasMark single ?_
  rw [String.toList_ofList]
  cases sample with
  | none => exact absurd hchars List.not_mem_nil
  | some value => exact Json.hasMark_of_mem_lines_pretty hchars

theorem fences_requestListing_iff (e : Endpoint) :
    fences (requestListing e) = 2 ↔
      NoFence e.requestLine ∧ ∀ p ∈ e.inHeaders, NoFence (headerLine e p.2) := by
  have sample : ∀ line ∈ (if e.hasRequestBody then "" :: linesOf e.parameterText else []),
      NoFence line := by
    split
    · exact List.forall_mem_cons.mpr ⟨by decide, fun line => noFence_of_mem_linesOf_sample⟩
    · exact fun line hline => absurd hline List.not_mem_nil
  rw [requestListing, fences_listing_iff (by decide), requestLines, List.forall_mem_append,
    List.forall_mem_append, List.forall_mem_singleton, List.forall_mem_map]
  exact ⟨fun h => h.1, fun h => ⟨h, sample⟩⟩

theorem fences_responseListing_iff (e : Endpoint) :
    fences (responseListing e) = 2 ↔ ∀ p ∈ e.outHeaders, NoFence ("header: " ++ p.2.text) := by
  rw [responseListing, fences_listing_iff (by decide), responseLines]
  dsimp only
  split
  · have empty : ∀ line ∈ (if (e.outHeaders.map fun p => "header: " ++ p.2.text).isEmpty then []
        else [""]), NoFence line := by
      split
      · exact fun line hline => absurd hline List.not_mem_nil
      · exact List.forall_mem_singleton.mpr (by decide)
    rw [List.forall_mem_append, List.forall_mem_append, List.forall_mem_map]
    exact ⟨fun h => h.1.1, fun h => ⟨⟨h, empty⟩, fun line => noFence_of_mem_linesOf_sample⟩⟩
  · rw [List.forall_mem_append, List.forall_mem_map, List.forall_mem_singleton]
    exact ⟨fun h => h.1, fun h => ⟨h, by decide⟩⟩

/-! ### Texts without line feeds -/

/-- A remark is on one line, and behind the word `header`. -/
theorem noFence_headerLine {e : Endpoint} {h : Header} (oneLine : ∀ tag ∈ e.tags, tag.OneLine)
    (single : '\n' ∉ h.text.toList) : NoFence (headerLine e h) := by
  have remark : '\n' ∉ (((e.param? h.key).map (·.content)).getD "").toList := by
    cases said : e.param? h.key with
    | none => exact List.not_mem_nil
    | some tag => exact oneLine tag (List.mem_of_find?_eq_some said)
  have text : ("header: " ++ h.text ++ "  " ++ ((e.param? h.key).map (·.content)).getD "").toList =
      "header: ".toList ++ (h.text.toList ++ ("  ".toList ++
        (((e.param? h.key).map (·.content)).getD "").toList)) := by
    simp only [String.toList_append, List.append_assoc]
  have whole : '\n' ∉ "header: ".toList ++ (h.text.toList ++ ("  ".toList ++
      (((e.param? h.key).map (·.content)).getD "").toList)) := by
    rw [List.mem_append, List.mem_append, List.mem_append, not_or, not_or, not_or]
    exact ⟨by decide, single, by decide, remark⟩
  refine noFence_of_hasMark ?_ ?_ <;> rw [headerLine, String.toList_ofList, text]
  · exact fun lineFeed => whole (trimEnd_subset _ lineFeed)
  · have first : 'h' ∈ "header: ".toList := by decide
    exact ⟨'h', mem_trimEnd_of_not_isBlank (by decide) (List.mem_append_left _ first), by decide⟩

theorem noFence_header {h : Header} (single : '\n' ∉ h.text.toList) :
    NoFence ("header: " ++ h.text) := by
  refine noFence_of_hasMark ?_ ?_ <;> rw [String.toList_append]
  · rw [List.mem_append, not_or]
    exact ⟨by decide, single⟩
  · exact ⟨'h', List.mem_append_left _ (by decide), by decide⟩

theorem noFence_requestLine {e : Endpoint} (uri : '\n' ∉ e.uri.toList)
    (query : '\n' ∉ e.query.toList) : NoFence e.requestLine := by
  have method : '\n' ∉ e.method.name.toList ∧ HasMark e.method.name.toList := by
    cases e.method <;> decide
  have text : e.requestLine.toList =
      e.method.name.toList ++ (" ".toList ++ (e.uri.toList ++ e.query.toList)) := by
    rw [Endpoint.requestLine]
    simp only [String.toList_append, List.append_assoc]
  refine noFence_of_hasMark ?_ ?_ <;> rw [text]
  · rw [List.mem_append, List.mem_append, List.mem_append, not_or, not_or, not_or]
    exact ⟨method.1, by decide, uri, query⟩
  · exact method.2.append_left _

end Page

/-! ### Endpoints of handlers -/

namespace Spring

open Markup Page

/-- **The listings of an endpoint end where they are closed** iff no line of the request line and of
the headers looks like a fence.  Neither what the comment says about the headers nor the samples can
close a listing, and without line feeds in the route, the query and the headers nothing does. -/
theorem listings_fenced_iff (types : Types) (baseUris : List String) (h : Handler) (e : Endpoint)
    (chunks : List String) (es : List Endpoint) (content : String)
    (commented : e.tags = (DocComment.ofChunks chunks).tags)
    (ok : (endpoints types baseUris h e).value = .ok es) :
    ∀ e' ∈ es,
      (Page.endpoint e').foldl write content =
        content ++ Markup.text [.title 2 e'.name, .paragraph e'.description, .title 4 "request"] ++
          requestListing e' ++ Markup.text [table e'.requestRows, .title 4 "response"] ++
          responseListing e' ++ Markup.text [table e'.responseRows] ∧
      (fences (requestListing e') = 2 ↔
        NoFence e'.requestLine ∧ ∀ p ∈ e'.inHeaders, NoFence (headerLine e' p.2)) ∧
      (fences (responseListing e') = 2 ↔
        ∀ p ∈ e'.outHeaders, NoFence ("header: " ++ p.2.text)) ∧
      ('\n' ∉ e'.uri.toList → '\n' ∉ e'.query.toList →
        (∀ p ∈ e'.inHeaders ++ e'.outHeaders, '\n' ∉ p.2.text.toList) →
        fences (requestListing e') = 2 ∧ fences (responseListing e') = 2) := by
  intro e' he'
  refine ⟨foldl_write_endpoint content e', fences_requestListing_iff e',
    fences_responseListing_iff e', fun uri query headers => ?_⟩
  have oneLine : ∀ tag ∈ e'.tags, tag.OneLine := by
    rw [tags_of_mem_endpoints ok e' he', commented]
    exact fun tag => DocComment.oneLine_of_mem_tags
  rw [List.forall_mem_append] at headers
  rw [fences_requestListing_iff, fences_responseListing_iff]
  exact ⟨⟨noFence_requestLine uri query, fun p hp => noFence_headerLine oneLine (headers.1 p hp)⟩,
    fun p hp => noFence_header (headers.2 p hp)⟩

/-- A handler with a parameter that has a fallback, and a header that the comment explains. -/
def previewNote (fallback remark : String) : Handler where
  name := "preview"
  markers := [⟨"get_mapping", [(Marker.positional, .text "/preview")]⟩]
  doc := DocComment.ofChunks ["Preview of a note", "@param mode " ++ remark]
  params :=
    [⟨some "text", .named "String", [⟨requestParam, [("default_value", .text fallback)]⟩]⟩,
      ⟨some "mode", .named "String", [⟨requestHeader, []⟩]⟩]
  returns := some (.named "String")

/-- What it is documented as. -/
def previewEndpoints (fallback remark : String) : Except MissingData (List Endpoint) :=
  (endpoints itemTypes ["/notes"] (previewNote fallback remark)
    (Extract.endpointFor (previewNote fallback remark))).value

/-- Dashes inside of a line are no harm, and neither is a remark of dashes alone. -/
theorem previewNote_fenced :
    ∃ es, previewEndpoints "-- a --" "----" = .ok es ∧ es.length = 1 ∧
      ∀ e' ∈ es, fences (requestListing e') = 2 ∧ fences (responseListing e') = 2 := by
  have single : (previewEndpoints "-- a --" "----").toOption.map List.length = some 1 := by
    decide +kernel
  have quiet : (previewEndpoints "-- a --" "----").toOption.map (·.all fun e' =>
      decide (NoFence e'.requestLine ∧ ∀ p ∈ e'.inHeaders, NoFence (headerLine e' p.2)) &&
        decide (∀ p ∈ e'.outHeaders, NoFence ("header: " ++ p.2.text))) = some true := by
    decide +kernel
  cases ok : previewEndpoints "-- a --" "----" with
  | error fault =>
    rw [ok] at single
    cases single
  | ok es =>
    rw [ok] at single quiet
    refine ⟨es, rfl, Option.some.inj single, fun e' he' => ?_⟩
    obtain ⟨-, request, response, -⟩ := listings_fenced_iff itemTypes ["/notes"]
      (previewNote "-- a --" "----") (Extract.endpointFor (previewNote "-- a --" "----"))
      ["Preview of a note", "@param mode ----"] es "" rfl ok e' he'
    have free := List.all_eq_true.mp (Option.some.inj quiet) e' he'
    rw [Bool.and_eq_true, decide_eq_true_iff, decide_eq_true_iff] at free
    exact ⟨request.mpr free.1, response.mpr free.2⟩

/-- **A fallback of several lines may close the listing** that its request line is in. -/
theorem fallback_closes_listing :
    ¬ ∀ (types : Types) (baseUris : List String) (h : Handler) (e : Endpoint)
      (chunks : List String) (es : List Endpoint), e.tags = (DocComment.ofChunks chunks).tags →
      (endpoints types baseUris h e).value = .ok es →
      ∀ e' ∈ es, fences (requestListing e') = 2 ∧ fences (responseListing e') = 2 := by
  intro closed
  have shown : (previewEndpoints "Title\n----\nText" "").toOption.map (·.all fun e' =>
      decide (NoFence e'.requestLine)) = some false := by decide +kernel
  cases ok : previewEndpoints "Title\n----\nText" "" with
  | error fault =>
    rw [ok] at shown
    cases shown
  | ok es =>
    rw [ok] at shown
    have free : es.all (fun e' => decide (NoFence e'.requestLine)) = true := by
      refine List.all_eq_true.mpr fun e' he' => decide_eq_true ?_
      have request := (closed itemTypes ["/notes"] (previewNote "Title\n----\nText" "")
        (Extract.endpointFor (previewNote "Title\n----\nText" ""))
        ["Preview of a note", "@param mode "] es rfl ok e' he').1
      exact ((fences_requestListing_iff e').mp request).1
    cases (Option.some.inj shown).symm.trans free

end Spring
end RouteBook
