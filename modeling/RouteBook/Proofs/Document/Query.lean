import RouteBook.Document.Endpoint
import RouteBook.Proofs.Text.Pieces
/-! # Reading a query back

A request line shows keys and values as they are declared, with an equals sign behind each key and an
ampersand between any two pairs, and escapes nothing.  Read at these signs, a query gives a pair for
each of its pieces.  No piece holds an ampersand and no key that is read holds an equals sign, so keys
and values can be read back only if they are free of the signs that end them; and then they are
(`readQuery_queryText_iff`).
-/
namespace RouteBook
namespace Endpoint

open Text

/-- Reads a query.  A pair ends at an ampersand, and its key at the first equals sign; there is no pair
without one. -/
def readQuery (query : String) : List (Option (String × String)) :=
  (splitAt '&' query.toList).map fun piece =>
    (cutAt? (· = '=') piece).map (Prod.map String.ofList String.ofList)

/-- The text of an object behind the question mark. -/
def queryText (members : List (String × Json)) : String :=
  joined "&" (members.map fun m => m.1 ++ "=" ++ queryValue m.2)

/-- A member of an object whose key and value end where a query says that they do. -/
structure EndsInQuery (m : String × Json) : Prop where
  equals_notMem_key : '=' ∉ m.1.toList
  ampersand_notMem_key : '&' ∉ m.1.toList
  ampersand_notMem_value : '&' ∉ (queryValue m.2).toList

/-- The request line of an endpoint with parameters in its query. -/
theorem requestLine_eq {e : Endpoint} {members : List (String × Json)} (usesQuery : e.usesQuery = true)
    (sent : e.parameter = some (.object members)) (ne : members ≠ []) :
    e.requestLine = e.method.name ++ " " ++ e.uri ++ "?" ++ queryText members := by
  unfold requestLine query
  rw [usesQuery, sent]
  cases members with
  | nil => exact absurd rfl ne
  | cons m members => exact String.append_assoc.symm

/-- One pair of a query. -/
theorem cutAt?_pair_iff {key value : String} {piece : List Char} :
    (cutAt? (· = '=') piece).map (Prod.map String.ofList String.ofList) = some (key, value) ↔
      piece = (key ++ "=" ++ value).toList ∧ '=' ∉ key.toList := by
  have text : (key ++ "=" ++ value).toList = key.toList ++ '=' :: value.toList := by
    rw [String.toList_append, String.toList_append, List.append_assoc]
    rfl
  rw [text, Option.map_eq_some_iff]
  constructor
  · rintro ⟨⟨before, after⟩, cut, same⟩
    obtain ⟨rfl, rfl⟩ := Prod.mk.inj same
    obtain ⟨c, rfl, equals, front⟩ := cutAt?_eq_some_iff.mp cut
    rw [String.toList_ofList, String.toList_ofList, of_decide_eq_true equals]
    exact ⟨rfl, fun h => absurd rfl (of_decide_eq_false (front '=' h))⟩
  · rintro ⟨rfl, free⟩
    refine ⟨(key.toList, value.toList), cutAt?_eq_some_iff.mpr ⟨'=', rfl, rfl, fun c hc => ?_⟩, ?_⟩
    · exact decide_eq_false fun equals => free (equals ▸ hc)
    · rw [Prod.map, String.ofList_toList, String.ofList_toList]

/-- **A query is read back iff each key and value ends where the query says so.** -/
theorem readQuery_queryText_iff {members : List (String × Json)} (ne : members ≠ []) :
    readQuery (queryText members) = members.map (fun m => some (m.1, queryValue m.2)) ↔
      ∀ m ∈ members, EndsInQuery m := by
  have text : (queryText members).toList =
      joinWith ['&'] (members.map fun m => (m.1 ++ "=" ++ queryValue m.2).toList) := by
    rw [queryText, joined, String.toList_ofList, List.map_map]
    rfl
  constructor
  · intro back m hm
    -- the pair of a member is read off one of the pieces
    have pair := List.mem_map_of_mem (f := fun m => some (m.1, queryValue m.2)) hm
    rw [← back] at pair
    obtain ⟨piece, hpiece, read⟩ := List.mem_map.mp pair
    obtain ⟨rfl, equals⟩ := cutAt?_pair_iff.mp read
    have ampersand := notMem_of_mem_splitAt hpiece
    rw [String.toList_append, String.toList_append, List.append_assoc, List.mem_append,
      not_or, List.mem_append, not_or] at ampersand
    exact ⟨equals, ampersand.1, ampersand.2.2⟩
  · intro ends
    rw [readQuery, text, splitAt_joinWith, List.map_map]
    · refine List.map_congr_left fun m hm => cutAt?_pair_iff.mpr ⟨rfl, ?_⟩
      exact (ends m hm).equals_notMem_key
    · exact fun none => ne (List.map_eq_nil_iff.mp none)
    · intro piece hpiece
      obtain ⟨m, hm, rfl⟩ := List.mem_map.mp hpiece
      obtain ⟨-, key, value⟩ := ends m hm
      rw [String.toList_append, String.toList_append, List.mem_append, List.mem_append]
      rintro ((h | h) | h)
      · exact key h
      · exact absurd h (by decide)
      · exact value h

/-- **The query of a request line gives every key and value back** iff no key holds an ampersand or an
equals sign and no value an ampersand: then there is exactly one piece for each member of the object, in
order, and it gives the key and the text of the value. -/
theorem query_reads_back_iff (e : Endpoint) (members : List (String × Json))
    (usesQuery : e.usesQuery = true) (sent : e.parameter = some (.object members))
    (ne : members ≠ []) :
    ∃ query, e.requestLine = e.method.name ++ " " ++ e.uri ++ "?" ++ query ∧
      (readQuery query = members.map (fun m => some (m.1, queryValue m.2)) ↔
        ∀ m ∈ members, EndsInQuery m) :=
  ⟨queryText members, requestLine_eq usesQuery sent ne, readQuery_queryText_iff ne⟩

/-- An endpoint with the given parameters in its query. -/
def searching (members : List (String × Json)) : Endpoint :=
  { Endpoint.new "search" with uri := "/search", parameter := some (.object members) }

/-- What stands behind the question mark of its request line is the query. -/
theorem eq_of_requestLine_searching {m : String × Json} {members : List (String × Json)}
    {query : String} (line : (searching (m :: members)).requestLine = "GET /search?" ++ query) :
    query = queryText (m :: members) := by
  rw [requestLine_eq rfl rfl (List.cons_ne_nil m members)] at line
  exact ((String.append_right_inj _).mp line).symm

/-- An equals sign in a value is no harm, whether in a text or in a list, and an absent value is
empty. -/
theorem query_of_equations :
    readQuery "q=a=b&all=[\"a=b\",0]&page=" =
      [some ("q", "a=b"), some ("all", "[\"a=b\",0]"), some ("page", "")] := by
  have ends : ∀ m ∈ [("q", .text "a=b"), ("all", .array [.text "a=b", .ofInt 0]), ("page", .null)],
      EndsInQuery m := by
    intro m hm
    simp only [List.mem_cons, List.not_mem_nil, or_false] at hm
    rcases hm with rfl | rfl | rfl <;> constructor <;> decide +kernel
  obtain ⟨query, line, back⟩ := query_reads_back_iff
    (searching [("q", .text "a=b"), ("all", .array [.text "a=b", .ofInt 0]), ("page", .null)]) _ rfl rfl
    (List.cons_ne_nil _ _)
  obtain rfl := eq_of_requestLine_searching line
  exact back.mpr ends

/-- An ampersand in a value ends it too early. -/
theorem ampersand_splits_value :
    ¬ ∀ (e : Endpoint) (members : List (String × Json)), e.usesQuery = true →
      e.parameter = some (.object members) → members ≠ [] →
      ∃ query, e.requestLine = e.method.name ++ " " ++ e.uri ++ "?" ++ query ∧
        readQuery query = members.map (fun m => some (m.1, queryValue m.2)) := by
  intro reads
  obtain ⟨query, line, back⟩ := reads (searching [("q", .text "x&y")]) _ rfl rfl
    (List.cons_ne_nil _ _)
  obtain rfl := eq_of_requestLine_searching line
  have ends := (readQuery_queryText_iff (List.cons_ne_nil _ _)).mp back _ List.mem_cons_self
  exact ends.ampersand_notMem_value (by decide +kernel)

end Endpoint
end RouteBook
