import Gatehouse.Proofs.Http.Value

/-!
Texts that are read leniently.

The lenient reader keeps what is left of a character after its first bytes. Over the
bytes of a character it ends with that character, whatever follows, so the bytes of a
text are read back as the text (`lenient_ofText`).
-/

namespace Gatehouse.Bytes

/-- A byte behind the first one of a character. -/
def continuation (n : Nat) : UInt8 :=
  UInt8.ofNat (n + 0x80)

theorem continuation_bounds : ∀ n < 64, 0x80 ≤ continuation n ∧ continuation n ≤ 0xBF ∧
    (continuation n).toNat - 0x80 = n ∧ (32 ≤ n → 0xA0 ≤ continuation n) ∧
    (n < 32 → continuation n ≤ 0x9F) ∧ (16 ≤ n → 0x90 ≤ continuation n) ∧
    (n < 16 → continuation n ≤ 0x8F) := by
  decide

/-- What the first byte of two, three or four leaves. -/
theorem ofFirst_of_two : ∀ n < 32, 2 ≤ n →
    Partial.ofFirst (UInt8.ofNat (n + 192)) = some (.inr ⟨1, 0x80, 0xBF, n⟩) := by
  decide

@[inherit_doc ofFirst_of_two]
theorem ofFirst_of_three : ∀ n < 16, Partial.ofFirst (UInt8.ofNat (n + 224)) =
    some (.inr ⟨2, if n = 0 then 0xA0 else 0x80, if n = 13 then 0x9F else 0xBF, n⟩) := by
  decide

@[inherit_doc ofFirst_of_two]
theorem ofFirst_of_four : ∀ n < 5, Partial.ofFirst (UInt8.ofNat (n + 240)) =
    some (.inr ⟨3, if n = 0 then 0x90 else 0x80, if n = 4 then 0x8F else 0xBF, n⟩) := by
  decide

section Reading

variable {held : Partial} {n : Nat} (small : n < 64) (low : held.low ≤ continuation n)
  (high : continuation n ≤ held.high) (rest : Bytes)

include small low high

/-- The last byte of a character ends it. -/
theorem lenientChars_last (last : held.owed = 1) :
    lenientChars (some held) (continuation n :: rest) =
      Char.ofNat (held.value * 64 + n) :: lenientChars none rest := by
  obtain ⟨-, -, value, -⟩ := continuation_bounds n small
  rw [lenientChars, if_pos ⟨low, high⟩, value, if_pos (Nat.le_of_eq last)]

/-- A byte before the last one adds to the value. -/
theorem lenientChars_more (more : 1 < held.owed) :
    lenientChars (some held) (continuation n :: rest) =
      lenientChars (some ⟨held.owed - 1, 0x80, 0xBF, held.value * 64 + n⟩) rest := by
  obtain ⟨-, -, value, -⟩ := continuation_bounds n small
  rw [lenientChars, if_pos ⟨low, high⟩, value, if_neg (Nat.not_le.mpr more)]

end Reading

section Lengths

variable {a b c d : Nat} (rest : Bytes)

/-- Two bytes are read as the number that they are the digits of, and so are three or four,
unless a shorter sequence or none at all stands for that number. -/
theorem lenientChars_of_two (first : 2 ≤ a ∧ a < 32) (last : b < 64) :
    lenientChars none (UInt8.ofNat (a + 192) :: continuation b :: rest) =
      Char.ofNat (a * 64 + b) :: lenientChars none rest := by
  obtain ⟨low, high, -⟩ := continuation_bounds b last
  rw [lenientChars, ofFirst_of_two a first.2 first.1]
  exact lenientChars_last last low high rest rfl

@[inherit_doc lenientChars_of_two]
theorem lenientChars_of_three (first : a < 16) (second : b < 64) (last : c < 64)
    (wide : a = 0 → 32 ≤ b) (narrow : a = 13 → b < 32) :
    lenientChars none (UInt8.ofNat (a + 224) :: continuation b :: continuation c :: rest) =
      Char.ofNat ((a * 64 + b) * 64 + c) :: lenientChars none rest := by
  obtain ⟨low, high, -⟩ := continuation_bounds c last
  obtain ⟨low', high', -, above, below, -⟩ := continuation_bounds b second
  rw [lenientChars, ofFirst_of_three a first]
  have held : (if a = 0 then 0xA0 else 0x80) ≤ continuation b := by
    split
    · rename_i zero
      exact above (wide zero)
    · exact low'
  have held' : continuation b ≤ if a = 13 then 0x9F else 0xBF := by
    split
    · rename_i thirteen
      exact below (narrow thirteen)
    · exact high'
  exact (lenientChars_more second held held' _ (by dsimp only; omega)).trans
    (lenientChars_last last low high rest rfl)

@[inherit_doc lenientChars_of_two]
theorem lenientChars_of_four (first : a < 5) (second : b < 64) (third : c < 64) (last : d < 64)
    (wide : a = 0 → 16 ≤ b) (narrow : a = 4 → b < 16) :
    lenientChars none
        (UInt8.ofNat (a + 240) :: continuation b :: continuation c :: continuation d :: rest) =
      Char.ofNat (((a * 64 + b) * 64 + c) * 64 + d) :: lenientChars none rest := by
  obtain ⟨low, high, -⟩ := continuation_bounds d last
  obtain ⟨low', high', -⟩ := continuation_bounds c third
  obtain ⟨low'', high'', -, -, -, above, below⟩ := continuation_bounds b second
  rw [lenientChars, ofFirst_of_four a first]
  have held : (if a = 0 then 0x90 else 0x80) ≤ continuation b := by
    split
    · rename_i zero
      exact above (wide zero)
    · exact low''
  have held' : continuation b ≤ if a = 4 then 0x8F else 0xBF := by
    split
    · rename_i four
      exact below (narrow four)
    · exact high''
  exact (lenientChars_more second held held' _ (by dsimp only; omega)).trans
    ((lenientChars_more third low' high' _ (by dsimp only; omega)).trans
      (lenientChars_last last low high rest rfl))

end Lengths

/-- **The bytes of a character are read as that character**, whatever follows. -/
theorem lenientChars_utf8EncodeChar (c : Char) (rest : Bytes) :
    lenientChars none (String.utf8EncodeChar c ++ rest) = c :: lenientChars none rest := by
  have whole : ∀ n, n = c.toNat → Char.ofNat n = c := by
    rintro n rfl
    exact Char.ofNat_toNat c
  have code : c.val.toNat = c.toNat := rfl
  have digit : ∀ n, n % 64 < 64 := fun n => Nat.mod_lt n (by decide)
  -- The numbers from 0xD800 to 0xDFFF are no characters.
  have valid : c.toNat < 0xD800 ∨ 0xDFFF < c.toNat ∧ c.toNat < 0x110000 := c.valid
  rw [String.utf8EncodeChar, code]
  split
  · have read : ∀ n < 128, Partial.ofFirst (UInt8.ofNat n) = some (.inl (Char.ofNat n)) := by
      decide
    rw [List.singleton_append, lenientChars, read _ (by omega), Char.ofNat_toNat]
  · split
    · refine (lenientChars_of_two rest ⟨by omega, by omega⟩ (digit _)).trans ?_
      rw [whole _ (by omega)]
    · split
      · refine (lenientChars_of_three rest (by omega) (digit _) (digit _) (by omega)
          (by omega)).trans ?_
        rw [whole _ (by omega)]
      · refine (lenientChars_of_four rest (by omega) (digit _) (digit _) (digit _) (by omega)
          (by omega)).trans ?_
        rw [whole _ (by omega)]

/-- **The bytes of a text are read back.** -/
theorem lenient_ofText (s : String) : lenient (ofText s) = s := by
  have chars : ∀ cs : List Char, lenientChars none (cs.flatMap String.utf8EncodeChar) = cs := by
    intro cs
    induction cs with
    | nil => rfl
    | cons c rest ih => rw [List.flatMap_cons, lenientChars_utf8EncodeChar, ih]
  rw [lenient, ofText_eq, chars, String.ofList_toList]

end Gatehouse.Bytes
