import Gatehouse.Auth.Jar
import Gatehouse.Proofs.Http.SetCookie
import Gatehouse.Proofs.Text.Percent

/-!
What a jar writes into a response.

Applying a jar adds the cookies that a header can hold to those that the response
sets already, and touches nothing else (`Jar.sets_apply`, `Jar.getAll_apply_of_ne`).
Clearing a cookie always gets through, and so does the path to return to, since
it is kept in plain characters only (`Jar.isPlain_of_mem_redirectValue`) and read
as it was kept (`Jar.decodeText?_redirectValue`).
-/

namespace Gatehouse.Auth

open Http Cookie

theorem isName_sessionCookie : SetCookie.IsName sessionCookie := by decide

theorem isName_stateCookie : SetCookie.IsName stateCookie := by decide

theorem isName_redirectCookie : SetCookie.IsName redirectCookie := by decide

namespace Jar

variable (jar : Jar) (r : Response)

/-! ### The response of a jar -/

@[simp] theorem status_apply : (jar.apply r).status = r.status := rfl

@[simp] theorem body_apply : (jar.apply r).body = r.body := rfl

/-- The header values that a jar adds. -/
theorem filterMap_ofText?_write (cs : List Setting) :
    (cs.filterMap fun c => Value.ofText? c.write) =
      (cs.filter Setting.isWritable).map fun c => Bytes.ofText c.write := by
  induction cs with
  | nil => rfl
  | cons c rest ih =>
      rw [List.filterMap_cons, List.filter_cons, Value.ofText?_eq, ih]
      cases h : c.write.toList.all Value.isAllowedChar <;> simp [Setting.isWritable, h]

theorem getAll_foldl_append (name : String) (vs : List Value) (h : Headers) :
    (vs.foldl (fun h v => h.append name v) h).getAll name = h.getAll name ++ vs := by
  induction vs generalizing h with
  | nil => simp
  | cons v rest ih => rw [List.foldl_cons, ih, Headers.getAll_append, List.append_assoc]; rfl

theorem getAll_apply_of_ne {name : String} (ne : name ≠ Response.setCookieName) :
    (jar.apply r).headers.getAll name = r.headers.getAll name := by
  have kept : ∀ (vs : List Value) (h : Headers),
      (vs.foldl (fun h v => h.append Response.setCookieName v) h).getAll name = h.getAll name := by
    intro vs
    induction vs with
    | nil => exact fun h => rfl
    | cons v rest ih => exact fun h => (ih _).trans (Headers.getAll_append_of_ne ne v h)
  exact kept _ _

variable {jar r}

/-- **A jar adds its cookies to those of the response.** -/
theorem sets_apply {cs : List Setting} (h : r.Sets cs) :
    (jar.apply r).Sets (cs ++ jar.outgoing.filter Setting.isWritable) := by
  show (jar.apply r).headers.getAll Response.setCookieName = _
  rw [List.map_append, ← show r.headers.getAll _ = _ from h, ← filterMap_ofText?_write]
  exact getAll_foldl_append _ _ _

@[simp] theorem outgoing_set (name value : String) (maxAge : Int) :
    (jar.set name value maxAge).outgoing =
      jar.outgoing ++ [⟨name, value, true, jar.secure, maxAge⟩] := rfl

/-! ### The path to return to -/

/-- A character that a path is kept with: its bytes are plain octets, or it begins an
escape. -/
def IsKept (c : Char) : Prop :=
  (String.utf8EncodeChar c).all isPlainOctet = true ∨ c = '%'

instance (c : Char) : Decidable (IsKept c) :=
  inferInstanceAs (Decidable (_ ∨ _))

theorem IsKept.ascii {c : Char} (h : IsKept c) : c.toNat < 128 := by
  rcases h with octets | rfl
  · refine Decidable.byContradiction fun wide => ?_
    obtain ⟨b, rest, hb⟩ := List.exists_cons_of_ne_nil (String.utf8EncodeChar_ne_nil (c := c))
    have mem : b ∈ String.utf8EncodeChar c := by simp [hb]
    have plain := List.all_eq_true.mp octets b mem
    have high := UInt8.le_iff_toNat_le.mp (Bytes.le_of_mem_utf8EncodeChar wide mem)
    simp only [isPlainOctet, Bool.or_eq_true, Bool.and_eq_true, decide_eq_true_eq, beq_iff_eq,
      UInt8.le_iff_toNat_le, ← UInt8.toNat_inj] at plain
    simp at plain high
    omega
  · decide

theorem IsKept.isPlain {c : Char} (h : IsKept c) : SetCookie.IsPlain c :=
  Bytes.forall_ascii (fun c => IsKept c → SetCookie.IsPlain c) (by decide) c h.ascii h

theorem IsKept.not_isBlank {c : Char} (h : IsKept c) : Text.isBlank c = false :=
  Bytes.forall_ascii (fun c => IsKept c → Text.isBlank c = false) (by decide) c h.ascii h

theorem isKept_of_mem_encodeByte (b : UInt8) :
    ∀ c ∈ Text.Percent.encodeByte Text.Percent.isUnreserved b, IsKept c := by
  have byte : (Text.Percent.encodeByte Text.Percent.isUnreserved b).all (IsKept ·) = true := by
    refine Bytes.forall_byte (fun b =>
      (Text.Percent.encodeByte Text.Percent.isUnreserved b).all (IsKept ·) = true) ?_ b
    decide +kernel
  simpa using byte

theorem isKept_of_mem_redirectValue {path : String} {c : Char}
    (h : c ∈ (redirectValue path).toList) : IsKept c := by
  rw [redirectValue] at h
  split at h
  · rename_i plain
    rw [Bytes.ofText_eq, List.all_flatMap, List.all_eq_true] at plain
    exact .inl (plain c h)
  · rw [Text.Percent.encode, String.toList_ofList, Text.Percent.encodeBytes, List.mem_flatMap] at h
    obtain ⟨b, -, hb⟩ := h
    exact isKept_of_mem_encodeByte b c hb

/-- The path to return to is kept in plain characters. -/
theorem isPlain_of_mem_redirectValue {path : String} {c : Char}
    (h : c ∈ (redirectValue path).toList) : SetCookie.IsPlain c :=
  (isKept_of_mem_redirectValue h).isPlain

theorem trim_redirectValue (path : String) :
    Text.trim (redirectValue path) = redirectValue path :=
  Text.trim_eq_self fun _ hc => (isKept_of_mem_redirectValue hc).not_isBlank

/-- **The path to return to is read as it was kept.** A path that is kept as it is has
no sign of percent coding. -/
theorem decodeText?_redirectValue (path : String) :
    Text.Percent.decodeText? (redirectValue path) = some path := by
  rw [redirectValue]
  split
  · rename_i plain
    refine Text.Percent.decodeText?_of_not_mem fun sign => ?_
    have octet := List.all_eq_true.mp plain _ sign
    exact absurd octet (by decide)
  · exact Text.Percent.decodeText?_encode (fun b => Text.Percent.of_isUnreserved) path

end Jar

end Gatehouse.Auth
