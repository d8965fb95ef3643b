import Gatehouse.Http.Headers

/-!
Texts as header values, character by character.

A byte of a text in UTF-8 is either an ASCII character or at least `0x80`. So
whether a text can be a header value, and whether a value is read back as text,
is decided by its characters (`ofText?_eq`, `text?_ofText`).
-/

namespace Gatehouse

namespace Bytes

theorem ofText_eq (s : String) : ofText s = s.toList.flatMap String.utf8EncodeChar := by
  have encoded : s.toByteArray = s.toList.utf8Encode := String.utf8Encode_toList.symm
  simp [ofText, encoded, List.utf8Encode]

/-- What holds of the first 128 characters holds of ASCII. -/
theorem forall_ascii (P : Char → Prop) (h : ∀ n < 128, P (Char.ofNat n)) (c : Char)
    (ascii : c.toNat < 128) : P c := by
  have hc := h c.toNat ascii
  rwa [Char.ofNat_toNat] at hc

/-- What holds of the first 256 numbers holds of every byte. -/
theorem forall_byte (P : UInt8 → Prop) (h : ∀ n < 256, P (UInt8.ofNat n)) (b : UInt8) : P b := by
  have hb := h b.toNat b.toNat_lt
  rwa [UInt8.ofNat_toNat] at hb

/-- Every byte of a character beyond ASCII has its highest bit set. -/
theorem le_of_mem_utf8EncodeChar {c : Char} (wide : ¬ c.toNat < 128) {b : UInt8}
    (hb : b ∈ String.utf8EncodeChar c) : 0x80 ≤ b := by
  have high : ∀ n : Nat, 128 ≤ n % 256 → (0x80 : UInt8) ≤ UInt8.ofNat n := by
    intro n hn
    rw [UInt8.le_iff_toNat_le, UInt8.toNat_ofNat]
    exact hn
  have notAscii : ¬ c.val.toNat ≤ 0x7f := by
    intro le
    exact wide (Nat.lt_of_le_of_lt le (by decide))
  rw [String.utf8EncodeChar, if_neg notAscii] at hb
  split at hb
  · simp only [List.mem_cons, List.not_mem_nil, or_false] at hb
    rcases hb with rfl | rfl <;> exact high _ (by omega)
  · split at hb
    · simp only [List.mem_cons, List.not_mem_nil, or_false] at hb
      rcases hb with rfl | rfl | rfl <;> exact high _ (by omega)
    · simp only [List.mem_cons, List.not_mem_nil, or_false] at hb
      rcases hb with rfl | rfl | rfl | rfl <;> exact high _ (by omega)

end Bytes

namespace Http.Value

/-- A character that a value may hold: no control character of ASCII but a tab. -/
def isAllowedChar (c : Char) : Bool :=
  (0x20 ≤ c.toNat && c.toNat != 0x7F) || c == '\t'

/-- A character that a value is readable with. -/
def isReadableChar (c : Char) : Bool :=
  (0x20 ≤ c.toNat && c.toNat < 0x7F) || c == '\t'

/-- A header can hold whatever is no control character. -/
theorem isAllowedChar_of_not_isControl {c : Char} (h : Text.isControl c = false) :
    isAllowedChar c = true := by
  simp only [Text.isControl, Bool.or_eq_false_iff, Bool.and_eq_false_iff, decide_eq_false_iff_not]
    at h
  simp only [isAllowedChar, Bool.or_eq_true, Bool.and_eq_true, decide_eq_true_eq, bne_iff_ne]
  exact .inl ⟨by omega, by omega⟩

theorem isAllowedChar_of_isReadableChar {c : Char} (h : isReadableChar c = true) :
    isAllowedChar c = true := by
  simp only [isReadableChar, isAllowedChar, Bool.or_eq_true, Bool.and_eq_true, decide_eq_true_eq,
    bne_iff_ne] at h ⊢
  exact h.imp_left fun visible => ⟨visible.1, by omega⟩

theorem isReadableChar_of_isDigit {c : Char} (h : c.isDigit = true) : isReadableChar c = true := by
  rw [Char.isDigit, Bool.and_eq_true] at h
  have low : 48 ≤ c.toNat := of_decide_eq_true h.1
  have high : c.toNat ≤ 57 := of_decide_eq_true h.2
  simp only [isReadableChar, Bool.or_eq_true, Bool.and_eq_true, decide_eq_true_eq]
  exact .inl ⟨by omega, by omega⟩

theorem all_isAllowed (c : Char) :
    (String.utf8EncodeChar c).all isAllowed = isAllowedChar c := by
  by_cases ascii : c.toNat < 128
  · exact Bytes.forall_ascii
      (fun c => (String.utf8EncodeChar c).all isAllowed = isAllowedChar c) (by decide) c ascii
  · have right : isAllowedChar c = true := by
      simp only [isAllowedChar, Bool.or_eq_true, Bool.and_eq_true, decide_eq_true_eq, bne_iff_ne]
      exact .inl ⟨by omega, by omega⟩
    rw [right, List.all_eq_true]
    intro b hb
    have high := Bytes.le_of_mem_utf8EncodeChar ascii hb
    have le : (0x20 : UInt8) ≤ b := UInt8.le_trans (by decide) high
    have ne : b ≠ 0x7F := by
      rintro rfl
      exact absurd high (by decide)
    simp [isAllowed, le, ne]

theorem lt_of_isReadableChar {c : Char} (h : isReadableChar c = true) : c.toNat < 128 := by
  rw [isReadableChar, Bool.or_eq_true, Bool.and_eq_true] at h
  rcases h with ⟨-, visible⟩ | tab
  · exact Nat.lt_trans (of_decide_eq_true visible) (by decide)
  · rw [eq_of_beq tab]
    decide

/-- The bytes of readable characters are their codes. -/
theorem map_ofUInt8_of_readable {cs : List Char} (h : cs.all isReadableChar = true) :
    (cs.flatMap String.utf8EncodeChar).map Char.ofUInt8 = cs := by
  induction cs with
  | nil => rfl
  | cons c rest ih =>
      obtain ⟨first, others⟩ := Bool.and_eq_true_iff.mp h
      have one := Bytes.forall_ascii
        (fun c => (String.utf8EncodeChar c).map Char.ofUInt8 = [c]) (by decide) c
        (lt_of_isReadableChar first)
      rw [List.flatMap_cons, List.map_append, one, ih others]
      rfl

theorem all_isReadable (c : Char) :
    (String.utf8EncodeChar c).all isReadable = isReadableChar c := by
  by_cases ascii : c.toNat < 128
  · exact Bytes.forall_ascii
      (fun c => (String.utf8EncodeChar c).all isReadable = isReadableChar c) (by decide) c ascii
  · have right : isReadableChar c = false :=
      Bool.eq_false_iff.mpr fun readable => ascii (lt_of_isReadableChar readable)
    rw [right, List.all_eq_false]
    obtain ⟨b, rest, hb⟩ := List.exists_cons_of_ne_nil (String.utf8EncodeChar_ne_nil (c := c))
    refine ⟨b, by simp [hb], ?_⟩
    have high := Bytes.le_of_mem_utf8EncodeChar ascii (b := b) (by simp [hb])
    have big : ¬ b < 0x7F := by
      intro lt
      exact absurd (UInt8.lt_of_lt_of_le lt (by decide : (0x7F : UInt8) ≤ 0x80))
        (UInt8.not_lt.mpr high)
    have tab : b ≠ 0x09 := by
      rintro rfl
      exact absurd high (by decide)
    simp [isReadable, big, tab]

/-- A text can be a value when each of its characters may be held. -/
theorem ofText?_eq (s : String) :
    ofText? s = if s.toList.all isAllowedChar then some (Bytes.ofText s) else none := by
  have bytes : (Bytes.ofText s).all isAllowed = s.toList.all isAllowedChar := by
    rw [Bytes.ofText_eq, List.all_flatMap]
    simp only [all_isAllowed]
  simp only [ofText?, bytes]

theorem ofText?_of_isSome {s : String} (h : (ofText? s).isSome) :
    ofText? s = some (Bytes.ofText s) := by
  rw [ofText?_eq] at h ⊢
  split at h
  · exact if_pos ‹_›
  · exact absurd h (by simp)

theorem bytes_of_ofText? {s : String} {v : Value} (h : ofText? s = some v) : v = Bytes.ofText s :=
  Option.some.inj (h.symm.trans (ofText?_of_isSome (by rw [h]; rfl)))

/-- A value is that of one text. -/
theorem ofText?_inj {s t : String} {v : Value} (h : ofText? s = some v) (h' : ofText? t = some v) :
    s = t := by
  have same := congrArg Bytes.text? ((bytes_of_ofText? h).symm.trans (bytes_of_ofText? h'))
  rw [Bytes.text?_ofText, Bytes.text?_ofText] at same
  exact Option.some.inj same

/-- The value of a text is readable when each of its characters is, and then
reads as that text. -/
theorem text?_ofText (s : String) :
    text? (Bytes.ofText s) = if s.toList.all isReadableChar then some s else none := by
  have bytes : (Bytes.ofText s).all isReadable = s.toList.all isReadableChar := by
    rw [Bytes.ofText_eq, List.all_flatMap]
    simp only [all_isReadable]
  rw [text?, bytes]
  split
  · rename_i readable
    rw [Bytes.ofText_eq, map_ofUInt8_of_readable readable, String.ofList_toList]
  · rfl

end Http.Value

end Gatehouse
