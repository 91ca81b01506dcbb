import RouteBook.Http.Method
import RouteBook.Proofs.Text.Pieces
/-! # Reading headers back

The name of a header ends at the first equals sign or colon, and what is behind that sign is its
value, signs included.  Both are trimmed.  So a header that has been read is in canonical form
(`Header.IsCanonical`), and the form is all that reading asks for: as the text of a header puts a colon
and a blank behind its name, every canonical header is read back from its text, and no other header is
(`parse?_text_iff`).
-/
namespace RouteBook
namespace Header

open Text

/-- The signs that end the name of a header. -/
def endsKey (c : Char) : Bool := c = '=' || c = ':'

/-- The part of a text in front of the first sign that ends a name; the whole text if it has none. -/
def keyPart (text : String) : List Char := text.toList.takeWhile (!endsKey ·)

/-- The part of a text behind the first sign that ends a name. -/
def valuePart (text : String) : List Char := (text.toList.dropWhile (!endsKey ·)).tail

/-- A header in the form in which headers are read. -/
structure IsCanonical (h : Header) : Prop where
  key_ne_empty : h.key ≠ ""
  key_trimmed : trimmed h.key = h.key
  equals_notMem_key : '=' ∉ h.key.toList
  colon_notMem_key : ':' ∉ h.key.toList
  value_trimmed : trimmed h.value = h.value

theorem parse?_eq (text : String) :
    parse? text =
      if trim (keyPart text) = [] then none
      else some ⟨String.ofList (trim (keyPart text)), String.ofList (trim (valuePart text))⟩ := by
  unfold parse?
  dsimp only
  rw [show (fun c : Char => decide (c = '=') || decide (c = ':')) = endsKey from rfl, getD_cutAt?]
  rfl

/-- A text is no header iff it is blank in front of the first sign. -/
theorem parse?_eq_none_iff (text : String) :
    parse? text = none ↔ isBlankText (keyPart text) = true := by
  rw [parse?_eq, ← trim_eq_nil_iff]
  split <;> simp_all

theorem parse?_eq_some_iff {text : String} {h : Header} :
    parse? text = some h ↔
      trim (keyPart text) ≠ [] ∧ h.key.toList = trim (keyPart text) ∧
        h.value.toList = trim (valuePart text) := by
  obtain ⟨key, value⟩ := h
  rw [parse?_eq]
  split
  · rename_i blank
    simp [blank]
  · rename_i ne
    rw [Option.some.injEq, Header.mk.injEq, ← String.toList_inj, ← String.toList_inj,
      String.toList_ofList, String.toList_ofList]
    constructor
    · rintro ⟨sameKey, sameValue⟩
      exact ⟨ne, sameKey.symm, sameValue.symm⟩
    · rintro ⟨-, sameKey, sameValue⟩
      exact ⟨sameKey.symm, sameValue.symm⟩

/-- No sign that ends a name is in front of the first one. -/
theorem endsKey_of_mem_keyPart {text : String} {c : Char} (hc : c ∈ keyPart text) :
    endsKey c = false := by
  have before := List.all_eq_true.mp List.all_takeWhile c hc
  simpa using before

/-- Every header that has been read is canonical. -/
theorem isCanonical_of_parse? {text : String} {h : Header} (read : parse? text = some h) :
    h.IsCanonical := by
  obtain ⟨ne, key, value⟩ := parse?_eq_some_iff.mp read
  have apart : ∀ c ∈ h.key.toList, endsKey c = false := by
    intro c hc
    rw [key] at hc
    exact endsKey_of_mem_keyPart (subset_trim _ hc)
  constructor
  · intro empty
    rw [← key, empty] at ne
    exact ne rfl
  · rw [trimmed, key, trim_trim, ← key, String.ofList_toList]
  · exact fun hmem => absurd (apart '=' hmem) (by decide)
  · exact fun hmem => absurd (apart ':' hmem) (by decide)
  · rw [trimmed, value, trim_trim, ← value, String.ofList_toList]

/-- The text of a header whose name holds no sign is cut behind the name. -/
theorem parts_text {h : Header} (equals : '=' ∉ h.key.toList) (colon : ':' ∉ h.key.toList) :
    keyPart h.text = h.key.toList ∧ valuePart h.text = ' ' :: h.value.toList := by
  have chars : h.text.toList = h.key.toList ++ ':' :: ' ' :: h.value.toList := by
    rw [text, String.toList_append, String.toList_append, List.append_assoc]
    rfl
  have apart : ∀ c ∈ h.key.toList, (!endsKey c) = true := by
    intro c hc
    have hequals : c ≠ '=' := fun same => equals (same ▸ hc)
    have hcolon : c ≠ ':' := fun same => colon (same ▸ hc)
    simp [endsKey, hequals, hcolon]
  rw [keyPart, valuePart, chars, List.takeWhile_append_of_pos apart,
    List.dropWhile_append_of_pos apart]
  exact ⟨List.append_nil _, rfl⟩

/-- Every canonical header is read back from its text. -/
theorem IsCanonical.parse?_text {h : Header} (canonical : h.IsCanonical) :
    parse? h.text = some h := by
  obtain ⟨key, value⟩ := parts_text canonical.equals_notMem_key canonical.colon_notMem_key
  have trimmedKey := congrArg String.toList canonical.key_trimmed
  have trimmedValue := congrArg String.toList canonical.value_trimmed
  rw [trimmed, String.toList_ofList] at trimmedKey trimmedValue
  rw [parse?_eq_some_iff, key, value]
  refine ⟨?_, trimmedKey.symm, ?_⟩
  · rw [trimmedKey]
    exact fun none => canonical.key_ne_empty (String.toList_eq_nil_iff.mp none)
  · -- the blank behind the colon is trimmed away
    rw [show trim (' ' :: h.value.toList) = trim h.value.toList from rfl, trimmedValue]

/-- **The headers that are read are the canonical ones, and these are read back from their text.**
There is no header in a text iff nothing but blanks is in front of the first equals sign or colon. -/
theorem parse?_text_iff (h : Header) :
    (∀ text, parse? text = some h → h.IsCanonical ∧ parse? h.text = some h) ∧
      (parse? h.text = some h ↔ h.IsCanonical) ∧
      ∀ text, parse? text = none ↔ isBlankText (keyPart text) = true := by
  refine ⟨fun text read => ?_, ?_, parse?_eq_none_iff⟩
  · have canonical := isCanonical_of_parse? read
    exact ⟨canonical, canonical.parse?_text⟩
  · exact ⟨isCanonical_of_parse?, IsCanonical.parse?_text⟩

/-- A value may hold the signs itself, here behind an equals sign with blanks around it. -/
theorem keepAlive_read_back :
    parse? " Keep-Alive = timeout=5: max " = some ⟨"Keep-Alive", "timeout=5: max"⟩ ∧
      IsCanonical ⟨"Keep-Alive", "timeout=5: max"⟩ ∧
      parse? "Keep-Alive: timeout=5: max" = some ⟨"Keep-Alive", "timeout=5: max"⟩ := by
  have read : parse? " Keep-Alive = timeout=5: max " = some ⟨"Keep-Alive", "timeout=5: max"⟩ := by
    decide +kernel
  exact ⟨read, (parse?_text_iff ⟨"Keep-Alive", "timeout=5: max"⟩).1 _ read⟩

end Header
end RouteBook
