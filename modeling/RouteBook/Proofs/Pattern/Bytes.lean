import RouteBook.Pattern.Glob
/-! # Characters and their bytes

A character below 128 is a single byte, and the bytes of any other character are all 128 or more.
So such a byte comes from its character only, as that of a slash does, and a text without such
characters has one byte for each character.
-/
namespace RouteBook
namespace Text

/-- The byte of a character below 128. -/
def byte (c : Char) : UInt8 := UInt8.ofNat c.toNat

theorem utf8EncodeChar_of_lt {c : Char} (h : c.toNat < 128) :
    String.utf8EncodeChar c = [byte c] := by
  have hc : c.val.toNat ≤ 0x7f := Nat.le_of_lt_succ h
  unfold String.utf8EncodeChar
  exact if_pos hc

/-- The bytes of a character from 128 on. -/
theorem le_of_mem_utf8EncodeChar {c : Char} (h : 128 ≤ c.toNat) {b : UInt8}
    (hb : b ∈ String.utf8EncodeChar c) : 128 ≤ b.toNat := by
  have high : 128 ≤ c.val.toNat := h
  unfold String.utf8EncodeChar at hb
  dsimp only at hb
  rw [if_neg (by omega)] at hb
  split at hb
  · simp only [List.mem_cons, List.not_mem_nil, or_false] at hb
    rcases hb with rfl | rfl <;> simp only [UInt8.toNat_ofNat'] <;> omega
  · split at hb
    · simp only [List.mem_cons, List.not_mem_nil, or_false] at hb
      rcases hb with rfl | rfl | rfl <;> simp only [UInt8.toNat_ofNat'] <;> omega
    · simp only [List.mem_cons, List.not_mem_nil, or_false] at hb
      rcases hb with rfl | rfl | rfl | rfl <;> simp only [UInt8.toNat_ofNat'] <;> omega

theorem toNat_byte {c : Char} (h : c.toNat < 128) : (byte c).toNat = c.toNat := by
  rw [byte, UInt8.toNat_ofNat']
  omega

theorem byte_injective {c d : Char} (hc : c.toNat < 128) (hd : d.toNat < 128)
    (h : byte c = byte d) : c = d := by
  have codes := congrArg UInt8.toNat h
  rw [toNat_byte hc, toNat_byte hd] at codes
  exact Char.toNat_inj.mp codes

/-- The byte of a character below 128 belongs to that character. -/
theorem eq_of_byte_mem {c d : Char} (hd : d.toNat < 128) (h : byte d ∈ String.utf8EncodeChar c) :
    c = d := by
  by_cases hc : c.toNat < 128
  · rw [utf8EncodeChar_of_lt hc, List.mem_singleton] at h
    exact byte_injective hc hd h.symm
  · have high := le_of_mem_utf8EncodeChar (Nat.le_of_not_lt hc) h
    rw [toNat_byte hd] at high
    omega

/-- The byte of a slash belongs to a slash. -/
theorem slash_mem_utf8EncodeChar {c : Char} (h : Glob.slash ∈ String.utf8EncodeChar c) :
    c = '/' := eq_of_byte_mem (by decide) h

theorem utf8EncodeChar_slash : String.utf8EncodeChar '/' = [Glob.slash] := by decide

theorem bytes_cons (c : Char) (cs : List Char) :
    bytes (c :: cs) = String.utf8EncodeChar c ++ bytes cs := List.flatMap_cons

theorem bytes_append (cs ds : List Char) : bytes (cs ++ ds) = bytes cs ++ bytes ds :=
  List.flatMap_append

theorem byte_notMem_bytes {d : Char} (hd : d.toNat < 128) {cs : List Char} (h : d ∉ cs) :
    byte d ∉ bytes cs := by
  intro hmem
  obtain ⟨c, hc, hb⟩ := List.mem_flatMap.mp hmem
  exact h (eq_of_byte_mem hd hb ▸ hc)

theorem slash_notMem_bytes {cs : List Char} (h : '/' ∉ cs) : Glob.slash ∉ bytes cs :=
  byte_notMem_bytes (by decide) h

theorem bytes_ne_nil {cs : List Char} (h : cs ≠ []) : bytes cs ≠ [] := by
  obtain ⟨c, rest, rfl⟩ := List.exists_cons_of_ne_nil h
  rw [bytes_cons]
  exact List.append_ne_nil_of_left_ne_nil String.utf8EncodeChar_ne_nil _

/-- A text below 128 has a byte for each character. -/
theorem bytes_eq_map {cs : List Char} (h : ∀ c ∈ cs, c.toNat < 128) : bytes cs = cs.map byte := by
  induction cs with
  | nil => rfl
  | cons c cs ih =>
    rw [bytes_cons, utf8EncodeChar_of_lt (h c List.mem_cons_self),
      ih fun d hd => h d (List.mem_cons_of_mem c hd), List.map_cons, List.singleton_append]

end Text
end RouteBook
