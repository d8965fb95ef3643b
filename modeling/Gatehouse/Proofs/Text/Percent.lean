import Gatehouse.Proofs.Http.Value
import Gatehouse.Text.Percent

/-!
Percent coding, read back.

An escape is read as the byte that it was written for, and a byte that is not the
sign of an escape as itself.

* `decodeText?_encode`: a text is read back, whichever bytes are kept, as long as
  those are ASCII and none is the sign.
* `decodeText?_of_not_mem`: a text without the sign is read as it is.
* `notMem_encode`: what is escaped, or was not there, is not in an encoded text.
-/

namespace Gatehouse.Text.Percent

/-- The two halves of a byte are digits, and the byte is put together from them. -/
theorem halves (b : UInt8) :
    b >>> 4 < 16 ∧ b &&& 0x0F < 16 ∧ (b >>> 4) * 16 + (b &&& 0x0F) = b := by
  refine Bytes.forall_byte
    (fun b => b >>> 4 < 16 ∧ b &&& 0x0F < 16 ∧ (b >>> 4) * 16 + (b &&& 0x0F) = b) ?_ b
  decide +kernel

/-- A digit is one byte, which has the value that it was written for. -/
theorem hexValue?_hexUpper {n : UInt8} (h : n < 16) :
    ∃ d, String.utf8EncodeChar (Bytes.hexUpper n) = [d] ∧ Bytes.hexValue? d = some n := by
  have checked : ∀ n < 16, String.utf8EncodeChar (Bytes.hexUpper (UInt8.ofNat n)) =
      [(Bytes.hexUpper (UInt8.ofNat n)).toUInt8] ∧
      Bytes.hexValue? (Bytes.hexUpper (UInt8.ofNat n)).toUInt8 = some (UInt8.ofNat n) := by decide
  have digit := checked n.toNat (UInt8.lt_iff_toNat_lt.mp h)
  rw [UInt8.ofNat_toNat] at digit
  exact ⟨_, digit⟩

theorem decode_cons_of_ne {b : UInt8} (ne : b ≠ sign) (rest : Bytes) :
    decode (b :: rest) = b :: decode rest := by
  match rest with
  | [] | [_] => rfl
  | _ :: _ :: _ => simp [decode, ne]

/-- A text of bytes without the sign is kept. -/
theorem decode_of_not_mem {bytes : Bytes} (h : sign ∉ bytes) : decode bytes = bytes := by
  induction bytes with
  | nil => rfl
  | cons b rest ih =>
      obtain ⟨ne, later⟩ := List.ne_and_not_mem_of_not_mem_cons h
      rw [decode_cons_of_ne (Ne.symm ne), ih later]

/-- An escape is read as its byte, whatever follows. -/
theorem decode_escape (b : UInt8) (rest : Bytes) :
    decode ((escape b).flatMap String.utf8EncodeChar ++ rest) = b :: decode rest := by
  obtain ⟨high, low, whole⟩ := halves b
  obtain ⟨h, first, high⟩ := hexValue?_hexUpper high
  obtain ⟨l, second, low⟩ := hexValue?_hexUpper low
  have written : (escape b).flatMap String.utf8EncodeChar = [sign, h, l] := by
    rw [escape, List.flatMap_cons, List.flatMap_cons, List.flatMap_cons, first, second]
    rfl
  rw [written, List.cons_append, List.cons_append, List.cons_append, List.nil_append, decode, high,
    low]
  simp [whole]

section Plain

variable {plain : UInt8 → Bool} (kept : ∀ b, plain b = true → b < 0x80 ∧ b ≠ sign)

include kept

theorem decode_encodeByte (b : UInt8) (rest : Bytes) :
    decode ((encodeByte plain b).flatMap String.utf8EncodeChar ++ rest) = b :: decode rest := by
  rw [encodeByte]
  split
  · rename_i keeps
    obtain ⟨ascii, ne⟩ := kept b keeps
    have checked : ∀ n < 128, String.utf8EncodeChar (Char.ofUInt8 (UInt8.ofNat n)) =
        [UInt8.ofNat n] := by decide
    have one := checked b.toNat (UInt8.lt_iff_toNat_lt.mp ascii)
    rw [UInt8.ofNat_toNat] at one
    rw [List.flatMap_singleton, one, List.singleton_append, decode_cons_of_ne ne]
  · exact decode_escape b rest

theorem decode_encodeBytes (bytes : Bytes) :
    decode ((encodeBytes plain bytes).flatMap String.utf8EncodeChar) = bytes := by
  induction bytes with
  | nil => rfl
  | cons b rest ih =>
      have first : encodeBytes plain (b :: rest) = encodeByte plain b ++ encodeBytes plain rest :=
        List.flatMap_cons
      rw [first, List.flatMap_append, decode_encodeByte kept, ih]

/-- **What was encoded is read back.** -/
theorem decodeText?_encode (s : String) : decodeText? (encode plain s) = some s := by
  rw [decodeText?, encode, Bytes.ofText_eq (String.ofList _), String.toList_ofList,
    decode_encodeBytes kept, Bytes.text?_ofText]

end Plain

theorem decodeText?_of_not_mem {s : String} (h : sign ∉ Bytes.ofText s) :
    decodeText? s = some s := by
  rw [decodeText?, decode_of_not_mem h, Bytes.text?_ofText]

/-- A byte of ASCII is no part of another character. -/
theorem toUInt8_notMem_ofText {c : Char} (ascii : c.toNat < 128) {s : String} (h : c ∉ s.toList) :
    c.toUInt8 ∉ Bytes.ofText s := by
  rw [Bytes.ofText_eq, List.mem_flatMap]
  rintro ⟨d, hd, hb⟩
  by_cases low : d.toNat < 128
  · have only := Bytes.forall_ascii
      (fun d => String.utf8EncodeChar d = [d.toUInt8] ∧ Char.ofUInt8 d.toUInt8 = d) (by decide)
    rw [(only d low).1, List.mem_singleton] at hb
    rw [← (only d low).2, ← hb, (only c ascii).2] at hd
    exact h hd
  · have small : ¬ 0x80 ≤ c.toUInt8 :=
      Bytes.forall_ascii (fun c => ¬ 0x80 ≤ c.toUInt8) (by decide) c ascii
    exact small (Bytes.le_of_mem_utf8EncodeChar low hb)

theorem sign_notMem_ofText {s : String} (h : '%' ∉ s.toList) : sign ∉ Bytes.ofText s :=
  toUInt8_notMem_ofText (by decide) h

/-- **A mark that is no part of an escape** is in an encoded text only if it is in the text and
is kept. -/
theorem notMem_encode {plain : UInt8 → Bool} {mark : Char} {s : String}
    (ascii : mark.toNat < 128) (foreign : ∀ b, mark ∉ escape b)
    (gone : plain mark.toUInt8 = false ∨ mark ∉ s.toList) : mark ∉ (encode plain s).toList := by
  rw [encode, String.toList_ofList, encodeBytes, List.mem_flatMap]
  rintro ⟨b, held, mem⟩
  rw [encodeByte] at mem
  split at mem
  · rename_i keeps
    have whole : (Char.ofUInt8 b).toUInt8 = b := by
      refine Bytes.forall_byte (fun b => (Char.ofUInt8 b).toUInt8 = b) ?_ b
      decide +kernel
    rw [← whole, ← List.mem_singleton.mp mem] at keeps held
    rcases gone with dropped | never
    · cases dropped.symm.trans keeps
    · exact toUInt8_notMem_ofText ascii never held
  · exact foreign b mem

/-- The bytes that never need an escape are ASCII, and the sign is none of them. -/
theorem of_isUnreserved {b : UInt8} (h : isUnreserved b = true) : b < 0x80 ∧ b ≠ sign := by
  refine Bytes.forall_byte (fun b => isUnreserved b = true → b < 0x80 ∧ b ≠ sign) ?_ b h
  decide +kernel

end Gatehouse.Text.Percent
