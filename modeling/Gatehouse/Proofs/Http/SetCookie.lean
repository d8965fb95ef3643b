import Gatehouse.Http.Cookie
import Gatehouse.Http.Message
import Gatehouse.Proofs.Http.Value
import Gatehouse.Proofs.Text.Decimal
import Gatehouse.Proofs.Text.Pieces

/-!
Cookies as a browser takes them from a response.

A browser splits the value of a `set-cookie` header at `;`, takes name and value
from the first piece and an attribute from every other one. What a response
writes is read back by it: the name always, the value up to a `;` in it, and the
attributes of the cookie last (`SetCookie.read?_write`).
-/

namespace Gatehouse.Http

/-- A cookie that a browser was told to keep. -/
structure SetCookie where
  name : String
  value : String
  attributes : List (String × Option String)
  deriving DecidableEq, Repr

namespace SetCookie

/-- The characters that a browser drops around names and values. -/
def isSpace (c : Char) : Bool :=
  c == ' ' || c == '\t'

/-- Drop the spaces at both ends. -/
def trimSpaces (cs : List Char) : List Char :=
  ((cs.dropWhile isSpace).reverse.dropWhile isSpace).reverse

/-- Read an attribute, which may have a value. -/
def attributeOf (piece : List Char) : String × Option String :=
  match Text.cutChars '=' piece with
  | some (name, value) =>
      (String.ofList (trimSpaces name), some (String.ofList (trimSpaces value)))
  | none => (String.ofList (trimSpaces piece), none)

/-- Read a cookie: a first piece without `=` or with an empty name is none. -/
def read? (text : String) : Option SetCookie :=
  match Text.pieces ';' text.toList with
  | [] => none
  | pair :: rest =>
      match Text.cutChars '=' pair with
      | none => none
      | some (name, value) =>
          if trimSpaces name = [] then none
          else
            some ⟨String.ofList (trimSpaces name), String.ofList (trimSpaces value),
              rest.map attributeOf⟩

/-- Read a number of seconds: digits, behind a sign if it is negative. -/
def age? (text : String) : Option Int :=
  match text.toList with
  | '-' :: digits =>
      if digits ≠ [] ∧ digits.all Char.isDigit then some (-Nat.ofDigitChars 10 digits 0) else none
  | digits =>
      if digits ≠ [] ∧ digits.all Char.isDigit then some (Nat.ofDigitChars 10 digits 0) else none

/-- The seconds for which to keep the cookie: the last attribute counts. -/
def maxAge? (c : SetCookie) : Option Int :=
  (c.attributes.filterMap fun a =>
    if Text.sameIgnoringCase a.1 "max-age" then a.2.bind age? else none).getLast?

/-- The cookie is to be dropped. -/
def deletes (c : SetCookie) : Bool :=
  c.maxAge?.any (· ≤ 0)

/-- A character that a header may hold and that a browser reads back as it is
within a value. -/
def IsPlain (c : Char) : Prop :=
  Value.isAllowedChar c = true ∧ c ≠ ';' ∧ isSpace c = false

instance (c : Char) : Decidable (IsPlain c) :=
  inferInstanceAs (Decidable (_ ∧ _))

/-- A name that a browser reads back as it is. -/
def IsName (name : String) : Prop :=
  name ≠ "" ∧ ∀ c ∈ name.toList, IsPlain c ∧ c ≠ '='

instance (name : String) : Decidable (IsName name) :=
  @instDecidableAnd _ _ _ (List.decidableBAll _ _)

end SetCookie

/-- The value that sets cookies. -/
def Response.setCookieName : String := "set-cookie"

/-- The response sets exactly these cookies, in order. -/
def Response.Sets (r : Response) (cookies : List Cookie.Setting) : Prop :=
  r.headers.getAll Response.setCookieName = cookies.map fun c => Bytes.ofText c.write

/-- The cookies that a response tells a browser to keep, in order. -/
def Response.cookies (r : Response) : List SetCookie :=
  (r.headers.getAll Response.setCookieName).filterMap fun v =>
    (Bytes.text? v).bind SetCookie.read?

namespace Cookie.Setting

/-- A header can hold the cookie. -/
def isWritable (c : Setting) : Bool :=
  c.write.toList.all Value.isAllowedChar

/-- The cookie that clears a name. -/
def cleared (name : String) (secure : Bool) : Setting :=
  ⟨name, "", false, secure, -1⟩

/-- The attributes that are written for a cookie. -/
def attributes (c : Setting) : List (String × Option String) :=
  ("HttpOnly", none) :: ((if c.sameSite then [("SameSite", some "Lax")] else []) ++
    ((if c.secure then [("Secure", none)] else []) ++
      [("Path", some "/"), ("Max-Age", some (Text.Decimal.ofInt c.maxAge))]))

/-- The texts that attributes without a number have, as they stand behind a `;`. -/
def fixedFields : List (List Char) :=
  [" HttpOnly".toList, " SameSite=Lax".toList, " Secure".toList, " Path=/".toList]

/-- The texts of the attributes of a cookie in order. -/
def fields (c : Setting) : List (List Char) :=
  " HttpOnly".toList :: ((if c.sameSite then [" SameSite=Lax".toList] else []) ++
    ((if c.secure then [" Secure".toList] else []) ++
      [" Path=/".toList, " Max-Age=".toList ++ (Text.Decimal.ofInt c.maxAge).toList]))

end Cookie.Setting

namespace SetCookie

open Cookie

/-! ### Numbers -/

/-- A number is written with digits and a sign. -/
theorem mem_ofInt {i : Int} {c : Char} (h : c ∈ (Text.Decimal.ofInt i).toList) :
    c.isDigit = true ∨ c = '-' := by
  rw [Text.Decimal.ofInt] at h
  split at h
  · rw [String.toList_append, List.mem_append] at h
    rcases h with sign | digit
    · exact .inr (by simpa using sign)
    · exact .inl (Text.Decimal.isDigit_of_mem_ofNat digit)
  · exact .inl (Text.Decimal.isDigit_of_mem_ofNat h)

/-- A written number of seconds is read back. -/
theorem age?_ofInt (i : Int) : age? (Text.Decimal.ofInt i) = some i := by
  have digits : ∀ n : Nat, Nat.toDigits 10 n ≠ [] ∧ (Nat.toDigits 10 n).all Char.isDigit = true :=
    fun n => ⟨Nat.toDigits_ne_nil, List.all_eq_true.mpr fun c hc =>
      Nat.isDigit_of_mem_toDigits (by decide) (by decide) hc⟩
  obtain ⟨nonempty, all⟩ := digits i.natAbs
  by_cases negative : i < 0
  · have text : (Text.Decimal.ofInt i).toList = '-' :: Nat.toDigits 10 i.natAbs := by
      simp [Text.Decimal.ofInt, negative, Text.Decimal.ofNat]
    rw [age?, text]
    simp only [if_pos (And.intro nonempty all), Nat.ofDigitChars_ten_toDigits]
    congr 1
    omega
  · have text : (Text.Decimal.ofInt i).toList = Nat.toDigits 10 i.natAbs := by
      simp [Text.Decimal.ofInt, negative, Text.Decimal.ofNat]
    rw [age?, text]
    split
    · rename_i rest eq
      rw [eq] at all
      exact absurd all (by simp)
    · rw [if_pos ⟨nonempty, all⟩, Nat.ofDigitChars_ten_toDigits]
      congr 1
      omega

/-! ### What is written and what is read -/

theorem trimSpaces_eq_self {cs : List Char} (h : ∀ c ∈ cs, isSpace c = false) :
    trimSpaces cs = cs :=
  Text.dropEnds_eq_self h

/-- Among readable characters spaces and tabs are all the blanks. -/
theorem isBlank_eq_isSpace {c : Char} (readable : Value.isReadableChar c = true) :
    Text.isBlank c = isSpace c :=
  Bytes.forall_ascii
    (fun c => Value.isReadableChar c = true → Text.isBlank c = isSpace c) (by decide) c
    (Value.lt_of_isReadableChar readable) readable

theorem trimChars_eq_trimSpaces {cs : List Char}
    (readable : ∀ c ∈ cs, Value.isReadableChar c = true) :
    Text.trimChars cs = trimSpaces cs := by
  have front : ∀ l : List Char, (∀ c ∈ l, Value.isReadableChar c = true) →
      l.dropWhile Text.isBlank = l.dropWhile isSpace := by
    intro l
    induction l with
    | nil => exact fun _ => rfl
    | cons c rest ih =>
        intro h
        rw [List.dropWhile_cons, List.dropWhile_cons, isBlank_eq_isSpace (h c List.mem_cons_self),
          ih fun c hc => h c (List.mem_cons_of_mem _ hc)]
  rw [Text.trimChars, trimSpaces, front cs readable, front]
  intro c hc
  exact readable c ((List.dropWhile_sublist _).subset (List.mem_reverse.mp hc))

theorem trimSpaces_trimSpaces (cs : List Char) : trimSpaces (trimSpaces cs) = trimSpaces cs :=
  Text.dropEnds_dropEnds isSpace cs

theorem not_mem_trimSpaces {cs : List Char} {c : Char} (h : c ∉ cs) : c ∉ trimSpaces cs := by
  intro hc
  have front := (List.dropWhile_sublist isSpace).subset (List.mem_reverse.mp hc)
  exact h ((List.dropWhile_sublist isSpace).subset (List.mem_reverse.mp front))

/-- A written number has neither a separator nor a space in it. -/
theorem plain_of_mem_ofInt {i : Int} {c : Char} (h : c ∈ (Text.Decimal.ofInt i).toList) :
    c ≠ ';' ∧ isSpace c = false := by
  rcases mem_ofInt h with digit | rfl
  · refine ⟨?_, ?_⟩
    · rintro rfl
      exact absurd digit (by decide)
    · have space : c ≠ ' ' := by
        rintro rfl
        exact absurd digit (by decide)
      have tab : c ≠ '\t' := by
        rintro rfl
        exact absurd digit (by decide)
      simp [isSpace, space, tab]
  · decide

variable {c : Setting}

theorem toList_write (c : Setting) :
    c.write.toList = c.name.toList ++ '=' :: (c.value.toList ++ c.fields.flatMap (';' :: ·)) := by
  obtain ⟨name, value, sameSite, secure, maxAge⟩ := c
  cases sameSite <;> cases secure <;>
    simp [Setting.write, Setting.fields, String.toList_append]

theorem mem_fields {field : List Char} (h : field ∈ c.fields) :
    field = " Max-Age=".toList ++ (Text.Decimal.ofInt c.maxAge).toList ∨
      field ∈ Setting.fixedFields := by
  rw [Setting.fields] at h
  simp only [Setting.fixedFields, List.mem_cons, List.mem_append, List.not_mem_nil, or_false] at h ⊢
  rcases h with httpOnly | sameSite | secure | path | age
  · exact .inr (.inl httpOnly)
  · split at sameSite
    · exact .inr (.inr (.inl (List.mem_singleton.mp sameSite)))
    · exact absurd sameSite List.not_mem_nil
  · split at secure
    · exact .inr (.inr (.inr (.inl (List.mem_singleton.mp secure))))
    · exact absurd secure List.not_mem_nil
  · exact .inr (.inr (.inr (.inr path)))
  · exact .inl age

theorem not_mem_fields : ∀ field ∈ c.fields, ';' ∉ field := by
  have checked : ∀ field ∈ Setting.fixedFields, ';' ∉ field := by decide
  intro field h
  rcases mem_fields h with rfl | fixed
  · intro h
    rcases List.mem_append.mp h with label | digit
    · exact absurd label (by decide)
    · exact (plain_of_mem_ofInt digit).1 rfl
  · exact checked field fixed

/-- The attributes are read back from their texts. -/
theorem map_attributeOf_fields : c.fields.map attributeOf = c.attributes := by
  have age : attributeOf (" Max-Age=".toList ++ (Text.Decimal.ofInt c.maxAge).toList) =
      ("Max-Age", some (Text.Decimal.ofInt c.maxAge)) := by
    have cut : Text.cutChars '='
        (" Max-Age".toList ++ '=' :: (Text.Decimal.ofInt c.maxAge).toList) =
        some (" Max-Age".toList, (Text.Decimal.ofInt c.maxAge).toList) :=
      Text.cutChars_append (by decide) _
    have label : " Max-Age=".toList ++ (Text.Decimal.ofInt c.maxAge).toList =
        " Max-Age".toList ++ '=' :: (Text.Decimal.ofInt c.maxAge).toList := rfl
    rw [attributeOf, label, cut]
    simp only [trimSpaces_eq_self fun ch hc => (plain_of_mem_ofInt hc).2, String.ofList_toList]
    rfl
  rw [Setting.fields, Setting.attributes]
  cases c.sameSite <;> cases c.secure <;>
    simp only [Bool.false_eq_true, if_false, if_true, List.nil_append, List.cons_append,
      List.map_cons, List.map_nil, age] <;> rfl

/-- **A written cookie is read back**: its name, what its value has before the
first `;`, and its attributes behind those that the value smuggles in. -/
theorem read?_write (named : IsName c.name) :
    ∃ first rest, Text.pieces ';' c.value.toList = first :: rest ∧
      read? c.write = some ⟨c.name, String.ofList (trimSpaces first),
        rest.map attributeOf ++ c.attributes⟩ := by
  obtain ⟨nonempty, plain⟩ := named
  obtain ⟨first, rest, cut⟩ := List.exists_cons_of_ne_nil (Text.pieces_ne_nil ';' c.value.toList)
  refine ⟨first, rest, cut, ?_⟩
  have noBreak : ';' ∉ c.name.toList := fun h => (plain _ h).1.2.1 rfl
  have noEquals : '=' ∉ c.name.toList := fun h => (plain _ h).2 rfl
  have pieces : Text.pieces ';' c.write.toList =
      (c.name.toList ++ '=' :: first) :: (rest ++ c.fields) := by
    rw [toList_write, ← List.cons_append, ← List.append_assoc,
      Text.pieces_append_flatMap not_mem_fields, Text.pieces_append noBreak]
    rw [show '=' :: c.value.toList = ['='] ++ c.value.toList from rfl,
      Text.pieces_append (by decide), cut]
    rfl
  have trimmed : trimSpaces c.name.toList = c.name.toList :=
    trimSpaces_eq_self fun ch hc => (plain ch hc).1.2.2
  have filled : c.name.toList ≠ [] := fun h => nonempty (String.toList_eq_nil_iff.mp h)
  rw [read?, pieces]
  simp only [Text.cutChars_append noEquals, trimmed, if_neg filled, String.ofList_toList,
    List.map_append, map_attributeOf_fields]

/-- A header can hold a cookie when it can hold the value of it. -/
theorem isWritable_eq (named : IsName c.name) :
    c.isWritable = c.value.toList.all Value.isAllowedChar := by
  have checked : ∀ field ∈ Setting.fixedFields, field.all Value.isAllowedChar = true := by decide
  have name : c.name.toList.all Value.isAllowedChar = true :=
    List.all_eq_true.mpr fun ch hc => (named.2 ch hc).1.1
  have age : (Text.Decimal.ofInt c.maxAge).toList.all Value.isAllowedChar = true := by
    refine List.all_eq_true.mpr fun ch hc => ?_
    rcases mem_ofInt hc with digit | rfl
    · exact Value.isAllowedChar_of_isReadableChar (Value.isReadableChar_of_isDigit digit)
    · decide
  have fields : (c.fields.flatMap (';' :: ·)).all Value.isAllowedChar = true := by
    rw [List.all_flatMap, List.all_eq_true]
    intro field hf
    rcases mem_fields hf with rfl | fixed
    · rw [List.all_cons, List.all_append, age]
      decide
    · rw [List.all_cons, checked field fixed]
      decide
  rw [Setting.isWritable, toList_write, List.all_append, List.all_cons, List.all_append, name,
    fields]
  simp [Value.isAllowedChar]

theorem isWritable_cleared {name : String} (named : IsName name) (secure : Bool) :
    (Setting.cleared name secure).isWritable = true :=
  isWritable_eq (c := Setting.cleared name secure) named

/-! ### What a browser reads -/

/-- A browser takes a name that is filled and has no spaces around it, and both name and value
end before what ends them. -/
theorem of_read? {text : String} {s : SetCookie} (h : read? text = some s) :
    s.name ≠ "" ∧ trimSpaces s.name.toList = s.name.toList ∧ '=' ∉ s.name.toList ∧
      ';' ∉ s.name.toList ∧ ';' ∉ s.value.toList := by
  obtain ⟨pair, rest, cut⟩ := List.exists_cons_of_ne_nil (Text.pieces_ne_nil ';' text.toList)
  have whole : ';' ∉ pair := Text.not_mem_of_mem_pieces (cut ▸ List.mem_cons_self)
  rw [read?, cut] at h
  split at h
  · rename_i uncut
    cases uncut
  · rename_i same
    cases same
    split at h
    · cases h
    · rename_i name value parts
      obtain ⟨rfl, equals⟩ := Text.cutChars_eq_some_iff.mp parts
      split at h
      · cases h
      · rename_i filled
        cases h
        simp only [String.toList_ofList]
        refine ⟨fun empty => filled ?_, trimSpaces_trimSpaces name, not_mem_trimSpaces equals,
          not_mem_trimSpaces fun hc => whole (List.mem_append_left _ hc),
          not_mem_trimSpaces fun hc => whole (List.mem_append_right _ (List.mem_cons_of_mem _ hc))⟩
        rw [← String.toList_ofList (l := trimSpaces name), empty]
        rfl

/-- A browser reads what the response sets. -/
theorem cookies_of_sets {r : Response} {cs : List Setting} (h : r.Sets cs) :
    r.cookies = cs.filterMap fun c => read? c.write := by
  rw [Response.cookies, show r.headers.getAll _ = _ from h, List.filterMap_map]
  congr 1
  funext c
  rw [Function.comp, Bytes.text?_ofText, Option.bind_some]

/-- The age of a cookie is read back, whatever its value smuggles in. -/
theorem maxAge?_append_attributes (name value : String) (extra : List (String × Option String)) :
    maxAge? ⟨name, value, extra ++ c.attributes⟩ = some c.maxAge := by
  have last : (c.attributes.filterMap fun a =>
      if Text.sameIgnoringCase a.1 "max-age" then a.2.bind age? else none) = [c.maxAge] := by
    have labels : ∀ label ∈ ["HttpOnly", "SameSite", "Secure", "Path"],
        Text.sameIgnoringCase label "max-age" = false := by decide
    have age : Text.sameIgnoringCase "Max-Age" "max-age" = true := by decide
    rw [Setting.attributes]
    cases c.sameSite <;> cases c.secure <;>
      simp [labels "HttpOnly" (by simp), labels "SameSite" (by simp), labels "Secure" (by simp),
        labels "Path" (by simp), age, age?_ofInt]
  rw [maxAge?, List.filterMap_append, last, List.getLast?_append]
  rfl

/-- What a browser reads has the name and the age that were written, and no `;`
in its value. -/
theorem of_read?_write (named : IsName c.name) {s : SetCookie} (h : read? c.write = some s) :
    s.name = c.name ∧ s.maxAge? = some c.maxAge ∧ ';' ∉ s.value.toList := by
  obtain ⟨first, rest, cut, read⟩ := read?_write named
  rw [read] at h
  cases h
  refine ⟨rfl, maxAge?_append_attributes _ _ _, ?_⟩
  rw [String.toList_ofList]
  exact not_mem_trimSpaces (Text.not_mem_of_mem_pieces (cut ▸ List.mem_cons_self))

/-- The cookies of a name that are read are those that were written under it. -/
theorem cookies_filter_of_sets {r : Response} {cs : List Setting} (h : r.Sets cs)
    (named : ∀ c ∈ cs, IsName c.name) (name : String) :
    (r.cookies.filter fun c => c.name == name) =
      (cs.filter fun c => c.name == name).filterMap fun c => read? c.write := by
  rw [cookies_of_sets h]
  clear h
  induction cs with
  | nil => rfl
  | cons c cs ih =>
      obtain ⟨first, rest, -, read⟩ := read?_write (named c List.mem_cons_self)
      have shown : ∀ more, ((c :: more).filterMap fun c => read? c.write) =
          _ :: more.filterMap fun c => read? c.write := fun more =>
        List.filterMap_cons_some (f := fun c : Setting => read? c.write) read
      have later := ih fun c hc => named c (List.mem_cons_of_mem _ hc)
      rw [shown, List.filter_cons, List.filter_cons, later]
      split
      · rw [shown]
      · rfl

/-- **A cookie is read as it was written** exactly when its value does not end early and
has no spaces around it. -/
theorem read?_write_eq_iff (named : IsName c.name) :
    read? c.write = some ⟨c.name, c.value, c.attributes⟩ ↔
      ';' ∉ c.value.toList ∧ trimSpaces c.value.toList = c.value.toList := by
  obtain ⟨first, rest, cut, read⟩ := read?_write named
  rw [read, Option.some.injEq, SetCookie.mk.injEq, and_iff_right rfl, List.append_left_eq_self,
    List.map_eq_nil_iff]
  constructor
  · rintro ⟨value, rfl⟩
    have whole := Text.not_mem_of_pieces_eq_singleton cut
    rw [Text.pieces_of_not_mem whole, List.cons.injEq] at cut
    have kept := congrArg String.toList value
    rw [String.toList_ofList, cut.1] at kept
    exact ⟨whole, cut.1 ▸ kept⟩
  · rintro ⟨whole, trimmed⟩
    rw [Text.pieces_of_not_mem whole, List.cons.injEq] at cut
    obtain ⟨rfl, rfl⟩ := cut
    exact ⟨by rw [trimmed, String.ofList_toList], rfl⟩

/-- A cookie with a plain value is read as it was written. -/
theorem read?_write_of_isPlain (named : IsName c.name)
    (plain : ∀ ch ∈ c.value.toList, IsPlain ch) :
    read? c.write = some ⟨c.name, c.value, c.attributes⟩ :=
  (read?_write_eq_iff named).mpr
    ⟨fun h => (plain ';' h).2.1 rfl, trimSpaces_eq_self fun ch hc => (plain ch hc).2.2⟩

/-- The only cookie of its name is told with its value and its age, if the value is plain. -/
theorem told_of_sets {r : Response} {cs : List Setting} (h : r.Sets cs)
    (named : ∀ c ∈ cs, IsName c.name) (only : (cs.filter fun s => s.name == c.name) = [c])
    (plain : ∀ ch ∈ c.value.toList, IsPlain ch) :
    (r.cookies.filter fun s => s.name == c.name).map (fun s => (s.value, s.maxAge?)) =
      [(c.value, some c.maxAge)] := by
  have mem : c ∈ cs := (List.mem_filter.mp (only ▸ List.mem_singleton_self c)).1
  have read := read?_write_of_isPlain (named c mem) plain
  have age := (of_read?_write (named c mem) read).2.1
  rw [cookies_filter_of_sets h named, only,
    List.filterMap_cons_some (f := fun c : Setting => read? c.write) read, List.filterMap_nil,
    List.map_singleton, age]

end SetCookie

end Gatehouse.Http
