import ArenaCore.Lib.Json

/-!
# Decoding Bytes

Text that was decoded from bytes as UTF-8, with replacement characters for what
is not UTF-8. Decoding can make text longer than the bytes were: a byte that
stands alone becomes a character of three bytes. Quoting the text can make a
byte six, and never more, since only characters of one byte are escaped.

## Main definitions

* `Decodes`: The text of some bytes.

## Theorems

* `Decodes.byteLength_le`: Decoded text takes at most three times the bytes.
* `Decodes.byteLength_quote_le`: Decoded and quoted it takes at most six times.
-/

/-- The replacement character. -/
def replacement : Char :=
  Char.ofNat 0xfffd

/-- Bytes and their text: encoded characters are read back, and anything else
    becomes a replacement character at a time, each for one byte or more. -/
inductive Decodes : List UInt8 → List Char → Prop where
  | nil : Decodes [] []
  | valid (c : Char) (bytes : List UInt8) (text : List Char) (rest : Decodes bytes text) :
      Decodes (String.utf8EncodeChar c ++ bytes) (c :: text)
  | invalid (chunk bytes : List UInt8) (text : List Char) (nonempty : chunk ≠ [])
      (rest : Decodes bytes text) : Decodes (chunk ++ bytes) (replacement :: text)

namespace Decodes

variable {bytes : List UInt8} {text : List Char}

/-- A weight that costs each byte of a character at most some factor, and a
    replacement no more than that, costs each decoded byte at most the factor. -/
theorem sum_le (weight : Char → Nat) (factor : Nat) (h : Decodes bytes text)
    (hweight : ∀ c, weight c ≤ factor * c.utf8Size) (hreplacement : weight replacement ≤ factor) :
    (text.map weight).sum ≤ factor * bytes.length := by
  induction h with
  | nil => exact Nat.zero_le _
  | valid c bytes text _ ih =>
      have hc := hweight c
      rw [List.map_cons, List.sum_cons, List.length_append, String.length_utf8EncodeChar,
        Nat.mul_add]
      omega
  | invalid chunk bytes text hne _ ih =>
      have hpos : factor * 1 ≤ factor * chunk.length :=
        Nat.mul_le_mul_left factor (List.length_pos_iff.2 hne)
      rw [List.map_cons, List.sum_cons, List.length_append, Nat.mul_add]
      omega

theorem byteLength_le (h : Decodes bytes text) :
    byteLength (String.ofList text) ≤ 3 * bytes.length := by
  rw [byteLength_ofList]
  exact h.sum_le Char.utf8Size 3 (fun c => by omega) (by decide)

theorem byteLength_quote_le (h : Decodes bytes text) :
    byteLength (Json.quote (String.ofList text)) ≤ 6 * bytes.length + 2 := by
  have hquote : byteLength "\"" = 1 := by decide
  have hescaped : ((text.flatMap Json.escape).map Char.utf8Size).sum
      = (text.map fun c => ((Json.escape c).map Char.utf8Size).sum).sum := by
    clear h
    induction text with
    | nil => rfl
    | cons c rest ih =>
        rw [List.flatMap_cons, List.map_append, List.sum_append, ih, List.map_cons, List.sum_cons]
  have hle := h.sum_le _ 6 Json.escape_utf8Size_le (by decide)
  simp only [Json.quote, byteLength_append, hquote, String.toList_ofList, byteLength_ofList,
    hescaped]
  omega

end Decodes
