import RouteBook.Proofs.Decimal.Numerals
import RouteBook.Proofs.Schema.Rows
/-! # Fallback values of integers

The fallback of a value whose sample is an integer is declared as a text.  If the text writes an
integer that fits in 64 bits with a sign, the fallback is that integer, and otherwise it is the text as
it was declared; the sample value and the row of the node show the one or the other
(`integer_fallback_shown`).  No type is looked at: a number that does not fit in the type of the value
is a number all the same, and one that fits in 64 bits only without a sign is kept as a text
(`largest_count_kept_as_text`).
-/
namespace RouteBook
namespace Schema

/-- A scalar has a value as its fallback, and shows it: as its sample value, and as a text in its row
if it has one. -/
structure FallsBackTo (s : Schema) (value : Json) (shown : String) : Prop where
  fallback : s.label.fallback = some value
  sample : s.sample = value
  rows : s.isAvailable = true → s.rows.map Row.fallback = [some shown]

theorem rows_primitive (label : Label) (h : label.isAvailable = true) (value : Json) :
    (primitive label value).rows = [.ofLabel (label.key.getD "") label] := by
  rw [(rows_eq_rowsUnder _).1, rowsUnder, h]
  rfl

/-- A primitive value falls back to what its text is read as. -/
theorem fallsBackTo_valueLike (label : Label) (value : Json) (written : String) :
    ((primitive label value).setFallback written).FallsBackTo (valueLike value written)
      (valueLike value written).plainText := by
  refine ⟨rfl, rfl, fun available => ?_⟩
  rw [setFallback, rows_primitive { label with fallback := some (valueLike value written) } available]
  rfl

theorem fallbackRange_iff (n : Int) :
    fallbackRange n = true ↔ -Int.pow 2 63 ≤ n ∧ n < Int.pow 2 63 := by
  rw [fallbackRange, Bool.and_eq_true, decide_eq_true_eq, decide_eq_true_eq]

/-- A text that writes an integer with 64 bits is read as that integer. -/
theorem valueLike_of_writes (i : Int) {written : String} {n : Int}
    (writes : Decimal.Writes written n) (low : -Int.pow 2 63 ≤ n) (high : n < Int.pow 2 63) :
    valueLike (.ofInt i) written = .ofInt n := by
  have read := Decimal.int?_trimmed_eq_some_iff.mpr writes
  have fits := (fallbackRange_iff n).mpr ⟨low, high⟩
  unfold valueLike Json.ofInt
  dsimp only
  rw [read, Option.filter_some, if_pos fits]

/-- Any other text is kept. -/
theorem valueLike_of_not_writes (i : Int) {written : String}
    (other : ∀ n, Decimal.Writes written n → n < -Int.pow 2 63 ∨ Int.pow 2 63 ≤ n) :
    valueLike (.ofInt i) written = .text written := by
  unfold valueLike Json.ofInt
  dsimp only
  cases read : Decimal.int? (Text.trimmed written).toList with
  | none => rfl
  | some n =>
    have outside := other n (Decimal.int?_trimmed_eq_some_iff.mp read)
    have unfit : ¬fallbackRange n = true := by
      rw [fallbackRange_iff]
      omega
    rw [Option.filter_some, if_neg unfit]

theorem plainText_ofInt (n : Int) : (Json.ofInt n).plainText = toString n := by
  rw [← Decimal.ofInt_eq_toString]
  exact String.ofList_toList

/-- **The fallback of an integer is the integer that is written,** if it fits in 64 bits with a sign,
and the text otherwise.  So of the integers that fit in 64 bits with or without a sign, just those with
a sign or below `2 ^ 63` stay numbers. -/
theorem integer_fallback_shown (label : Label) (i : Int) (written : String) :
    (∀ n, Decimal.Writes written n → -Int.pow 2 63 ≤ n → n < Int.pow 2 63 →
      ((primitive label (.ofInt i)).setFallback written).FallsBackTo (.ofInt n) (toString n)) ∧
    ((∀ n, Decimal.Writes written n → n < -Int.pow 2 63 ∨ Int.pow 2 63 ≤ n) →
      ((primitive label (.ofInt i)).setFallback written).FallsBackTo (.text written) written) ∧
    ∀ n, Decimal.Writes written n → -Int.pow 2 63 ≤ n → n < Int.pow 2 64 →
      (((primitive label (.ofInt i)).setFallback written).sample = .ofInt n ↔ n < Int.pow 2 63) := by
  have shows := fallsBackTo_valueLike label (.ofInt i) written
  have number : ∀ n, Decimal.Writes written n → -Int.pow 2 63 ≤ n → n < Int.pow 2 63 →
      ((primitive label (.ofInt i)).setFallback written).FallsBackTo (.ofInt n) (toString n) := by
    intro n writes low high
    rwa [valueLike_of_writes i writes low high, plainText_ofInt] at shows
  have text : (∀ n, Decimal.Writes written n → n < -Int.pow 2 63 ∨ Int.pow 2 63 ≤ n) →
      ((primitive label (.ofInt i)).setFallback written).FallsBackTo (.text written) written := by
    intro other
    rwa [valueLike_of_not_writes i other] at shows
  refine ⟨number, text, fun n writes low _ => ⟨fun same => ?_, fun high => ?_⟩⟩
  · by_cases high : n < Int.pow 2 63
    · exact high
    · have kept := (text fun m hm => .inr (writes.unique hm ▸ Int.not_lt.mp high)).sample
      rw [same] at kept
      cases kept
  · exact (number n writes low high).sample

/-- The least number that fits, with a line break behind it. -/
theorem offset_falls_back_to_least :
    Decimal.Writes " -9223372036854775808\n" (-9223372036854775808) ∧
      ((ofPrimitive "i64" (.ofInt 0)).setFallback " -9223372036854775808\n").FallsBackTo
        (.ofInt (-9223372036854775808)) "-9223372036854775808" := by
  have writes : Decimal.Writes " -9223372036854775808\n" (-9223372036854775808) :=
    Decimal.int?_trimmed_eq_some_iff.mp (by decide +kernel)
  exact ⟨writes, (integer_fallback_shown _ 0 _).1 _ writes (by decide) (by decide)⟩

/-- The largest number of 64 bits without a sign is kept as a text. -/
theorem largest_count_kept_as_text :
    ¬∀ (label : Label) (i : Int) (written : String) (n : Int), Decimal.Writes written n →
      -Int.pow 2 63 ≤ n → n < Int.pow 2 64 →
      ((primitive label (.ofInt i)).setFallback written).sample = .ofInt n := by
  intro stays
  have writes : Decimal.Writes "18446744073709551615" 18446744073709551615 :=
    Decimal.int?_trimmed_eq_some_iff.mp (by decide +kernel)
  have number := stays (Label.ofType "u64") 0 _ _ writes (by decide) (by decide)
  have kept := valueLike_of_not_writes 0 fun n hn => .inr (writes.unique hn ▸ by decide)
  rw [(fallsBackTo_valueLike _ _ _).sample, kept] at number
  cases number

end Schema
end RouteBook
