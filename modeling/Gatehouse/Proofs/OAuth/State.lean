import Gatehouse.OAuth.State
import Gatehouse.Proofs.Http.SetCookie
import Gatehouse.Proofs.Text.Form

/-!
States of a login as cookie values.

A state is never empty and has characters of the alphabet of base 64 only, so a
cookie carries it to a browser and back as it is, and so does a query.
-/

namespace Gatehouse.Text.Base64Url

theorem exists_of_mem_encodeChars {c : Char} (bytes : Bytes) (h : c ∈ encodeChars bytes) :
    ∃ n < 64, c = symbol n := by
  have byte : ∀ b : UInt8, b.toNat < 256 := fun b => b.toNat_lt
  fun_induction encodeChars bytes with
  | case1 => exact absurd h List.not_mem_nil
  | case2 a =>
      have ha := byte a
      simp only [List.mem_cons, List.not_mem_nil, or_false] at h
      rcases h with rfl | rfl
      · exact ⟨_, by omega, rfl⟩
      · exact ⟨_, by omega, rfl⟩
  | case3 a b =>
      have ha := byte a
      have hb := byte b
      simp only [List.mem_cons, List.not_mem_nil, or_false] at h
      rcases h with rfl | rfl | rfl
      · exact ⟨_, by omega, rfl⟩
      · exact ⟨_, by omega, rfl⟩
      · exact ⟨_, by omega, rfl⟩
  | case4 a b c rest ih =>
      have ha := byte a
      have hb := byte b
      have hc := byte c
      simp only [List.mem_cons] at h
      rcases h with rfl | rfl | rfl | rfl | later
      · exact ⟨_, by omega, rfl⟩
      · exact ⟨_, by omega, rfl⟩
      · exact ⟨_, by omega, rfl⟩
      · exact ⟨_, by omega, rfl⟩
      · exact ih later

end Gatehouse.Text.Base64Url

namespace Gatehouse.OAuth

open Http

variable {seed : Seed} {c : Char}

theorem exists_of_mem_stateOf (h : c ∈ (stateOf seed).toList) :
    ∃ n < 64, c = Text.Base64Url.symbol n := by
  rw [stateOf, Text.Base64Url.encode, String.toList_ofList] at h
  exact Text.Base64Url.exists_of_mem_encodeChars _ h

theorem isPlain_of_mem_stateOf (h : c ∈ (stateOf seed).toList) : SetCookie.IsPlain c := by
  have checked : ∀ n < 64, SetCookie.IsPlain (Text.Base64Url.symbol n) := by decide
  obtain ⟨n, small, rfl⟩ := exists_of_mem_stateOf h
  exact checked n small

theorem trim_stateOf (seed : Seed) : Text.trim (stateOf seed) = stateOf seed := by
  have checked : ∀ n < 64, Text.isBlank (Text.Base64Url.symbol n) = false := by decide
  refine Text.trim_eq_self fun c hc => ?_
  obtain ⟨n, small, rfl⟩ := exists_of_mem_stateOf hc
  exact checked n small

/-- A state is written in a query as it is. -/
theorem encodeText_stateOf (seed : Seed) : Text.Form.encodeText (stateOf seed) = stateOf seed := by
  have checked : ∀ n < 64, (String.utf8EncodeChar (Text.Base64Url.symbol n)).flatMap
      Text.Form.encodeByte = [Text.Base64Url.symbol n] := by decide +kernel
  refine Text.Form.encodeText_eq_self fun c hc => ?_
  obtain ⟨n, small, rfl⟩ := exists_of_mem_stateOf hc
  exact checked n small

theorem stateOf_ne_empty (seed : Seed) : stateOf seed ≠ "" := by
  intro empty
  have chars := congrArg String.toList empty
  rw [stateOf, Text.Base64Url.encode, String.toList_ofList] at chars
  have long : seed.toList.length = 16 := by simp
  match h : seed.toList with
  | [] => rw [h] at long; cases long
  | [_] => rw [h] at chars; simp [Text.Base64Url.encodeChars] at chars
  | [_, _] => rw [h] at chars; simp [Text.Base64Url.encodeChars] at chars
  | _ :: _ :: _ :: _ => rw [h] at chars; simp [Text.Base64Url.encodeChars] at chars

end Gatehouse.OAuth
