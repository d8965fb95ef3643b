import Gatehouse.Http.Cookie
import Gatehouse.Proofs.Assoc
import Gatehouse.Proofs.Http.Value
import Gatehouse.Proofs.Text.Pieces

/-!
Cookies as a browser sends them.

A browser sends all of its cookies in one header, joined by `; `. What is read of
them is what is read of each, or nothing at all when some cookie has a character
that a header is not readable with (`pairs_send`). So every pair that is read stems
from a cookie that was sent (`exists_of_mem_pairs_send`), and well-formed cookies
are read as they were sent (`pairs_of_carries`).
-/

namespace Gatehouse.Http.Cookie

/-- A cookie as it is sent. -/
def Pair.text (c : Pair) : String :=
  c.1 ++ "=" ++ c.2

/-- A header with the cookie is readable. -/
def Pair.isReadable (c : Pair) : Bool :=
  c.text.toList.all Value.isReadableChar

/-- The header of some cookies. -/
def sentText (cookies : List Pair) : String :=
  "; ".intercalate (cookies.map Pair.text)

/-- Send these cookies and no other: without any there is no header. -/
def send (cookies : List Pair) (headers : Headers) : Headers :=
  if cookies = [] then headers.erase "cookie"
  else headers.insert "cookie" (Bytes.ofText (sentText cookies))

theorem pair?_cons_space (piece : List Char) : pair? (' ' :: piece) = pair? piece := by
  rw [pair?, pair?, Text.cutChars, if_neg (by decide)]
  cases Text.cutChars '=' piece with
  | none => rfl
  | some parts => rfl

theorem filterMap_pair?_cons_space (cs : List Char) :
    (Text.pieces ';' (' ' :: cs)).filterMap pair? = (Text.pieces ';' cs).filterMap pair? := by
  rw [Text.pieces, if_neg (by decide)]
  cases Text.pieces ';' cs with
  | nil => rfl
  | cons piece rest => rw [List.modifyHead_cons, List.filterMap_cons, List.filterMap_cons,
      pair?_cons_space]

/-- What is read of joined texts is what is read of each. -/
theorem pairsOf_intercalate (texts : List String) :
    pairsOf ("; ".intercalate texts) = texts.flatMap pairsOf := by
  induction texts with
  | nil => rfl
  | cons text rest ih =>
      cases rest with
      | nil => simp
      | cons next rest =>
          have joined : ("; ".intercalate (text :: next :: rest)).toList =
              text.toList ++ ';' :: ' ' :: ("; ".intercalate (next :: rest)).toList := by
            simp [String.intercalate_cons_cons, String.toList_append]
          rw [pairsOf, joined, Text.pieces_append_sep, List.filterMap_append,
            filterMap_pair?_cons_space, List.flatMap_cons, ← ih]
          rfl

/-- A cookie without a separator in it is read as one pair. -/
theorem pairsOf_text {name value : String} (filled : name ≠ "")
    (trimmed : Text.trimChars name.toList = name.toList) (equals : '=' ∉ name.toList)
    (named : ';' ∉ name.toList) (whole : ';' ∉ value.toList) :
    pairsOf (Pair.text (name, value)) = [(name, Text.trim value)] := by
  have text : (Pair.text (name, value)).toList = name.toList ++ '=' :: value.toList := by
    simp [Pair.text, String.toList_append]
  have one : ';' ∉ name.toList ++ '=' :: value.toList := by
    simp [named, whole]
  have chars : name.toList ≠ [] := fun h => filled (String.toList_eq_nil_iff.mp h)
  have read : pair? (name.toList ++ '=' :: value.toList) = some (name, Text.trim value) := by
    rw [pair?, Text.cutChars_append equals]
    simp [trimmed, chars, Text.trim]
  rw [pairsOf, text, Text.pieces_of_not_mem one, List.filterMap_cons, read]
  rfl

theorem all_intercalate {p : Char → Bool} {sep : String} (between : sep.toList.all p = true)
    (texts : List String) :
    (sep.intercalate texts).toList.all p = texts.all fun text => text.toList.all p := by
  induction texts with
  | nil => rfl
  | cons text rest ih =>
      cases rest with
      | nil => simp
      | cons next rest =>
          rw [String.intercalate_cons_cons, String.toList_append, String.toList_append,
            List.all_append, List.all_append, between, ih, Bool.and_true]
          rfl

/-- The header of some cookies is readable when that of each is. -/
theorem text?_sentText (cookies : List Pair) : Value.text? (Bytes.ofText (sentText cookies)) =
    if cookies.all Pair.isReadable then some (sentText cookies) else none := by
  have readable : (sentText cookies).toList.all Value.isReadableChar =
      cookies.all Pair.isReadable := by
    rw [sentText, all_intercalate (by decide), List.all_map]
    rfl
  rw [Value.text?_ofText, readable]

theorem pairsOf_sentText (cookies : List Pair) :
    pairsOf (sentText cookies) = cookies.flatMap fun c => pairsOf c.text := by
  rw [sentText, pairsOf_intercalate, List.flatMap_map]

/-- **The cookies that were sent are read each by itself**, or none of them is. -/
theorem pairs_send (cookies : List Pair) (headers : Headers) : pairs (send cookies headers) =
    if cookies.all Pair.isReadable then cookies.flatMap fun c => pairsOf c.text else [] := by
  by_cases none : cookies = []
  · have erased : Headers.getAll "cookie" (headers.erase "cookie") = [] := by
      simp [Headers.getAll, Headers.erase, List.filter_filter]
    rw [send, if_pos none, pairs, erased, none]
    rfl
  · rw [send, if_neg none, pairs, Headers.getAll_insert, List.filterMap_cons, text?_sentText]
    split
    · rename_i unreadable
      split at unreadable
      · cases unreadable
      · rw [if_neg ‹_›]
        rfl
    · rename_i text readable
      split at readable
      · cases readable
        rw [if_pos ‹_›, List.filterMap_nil, List.flatMap_singleton, pairsOf_sentText]
      · cases readable

/-- Whatever is read of the cookies that were sent is read of one of them. -/
theorem exists_of_mem_pairs_send {cookies : List Pair} {headers : Headers} {q : Pair}
    (h : q ∈ pairs (send cookies headers)) : ∃ c ∈ cookies, q ∈ pairsOf c.text := by
  rw [pairs_send] at h
  split at h
  · exact List.mem_flatMap.mp h
  · exact absurd h List.not_mem_nil

/-! ### Cookies that are sent back -/

section Carries

variable {cookies : List Pair} {headers : Headers} {c : Pair} {name : String}

/-- A cookie with a name and a value of readable characters: the name has no blank and
no separator in it, and the value does not end before it is over. -/
structure Pair.WellFormed (c : Pair) : Prop where
  filled : c.1 ≠ ""
  name : ∀ ch ∈ c.1.toList,
    Value.isReadableChar ch = true ∧ Text.isBlank ch = false ∧ ch ≠ ';' ∧ ch ≠ '='
  value : ∀ ch ∈ c.2.toList, Value.isReadableChar ch = true ∧ ch ≠ ';'

instance (c : Pair) : Decidable c.WellFormed :=
  decidable_of_iff
    (c.1 ≠ "" ∧
      c.1.toList.all
          (fun ch => Value.isReadableChar ch && !Text.isBlank ch && ch != ';' && ch != '=')
        = true ∧
      c.2.toList.all (fun ch => Value.isReadableChar ch && ch != ';') = true)
    (by
      simp only [List.all_eq_true, Bool.and_eq_true, Bool.not_eq_true', bne_iff_ne, and_assoc]
      exact ⟨fun ⟨filled, name, value⟩ => ⟨filled, name, value⟩,
        fun h => ⟨h.filled, h.name, h.value⟩⟩)

/-- The headers carry these cookies, in any number of fields. -/
def Carries (headers : Headers) (cookies : List Pair) : Prop :=
  ∃ groups : List (List Pair), groups.flatten = cookies ∧
    headers.getAll "cookie" = groups.map fun group => Bytes.ofText (sentText group)

theorem Pair.WellFormed.readable (h : c.WellFormed) : c.isReadable = true := by
  have name : c.1.toList.all Value.isReadableChar = true :=
    List.all_eq_true.mpr fun ch hc => (h.name ch hc).1
  have value : c.2.toList.all Value.isReadableChar = true :=
    List.all_eq_true.mpr fun ch hc => (h.value ch hc).1
  rw [isReadable, text, String.toList_append, String.toList_append, List.all_append,
    List.all_append, name, value]
  rfl

theorem Pair.WellFormed.pairsOf_text (h : c.WellFormed) :
    pairsOf c.text = [(c.1, Text.trim c.2)] := by
  have trimmed : Text.trimChars c.1.toList = c.1.toList :=
    Text.dropEnds_eq_self fun ch hc => (h.name ch hc).2.1
  exact Cookie.pairsOf_text h.filled trimmed (fun hc => (h.name _ hc).2.2.2 rfl)
    (fun hc => (h.name _ hc).2.2.1 rfl) fun hc => (h.value _ hc).2 rfl

/-- **Well-formed cookies are read as they are sent**, but for blanks around a value. -/
theorem pairs_of_carries (carries : Carries headers cookies) (h : ∀ c ∈ cookies, c.WellFormed) :
    pairs headers = cookies.map fun c => (c.1, Text.trim c.2) := by
  obtain ⟨groups, rfl, sent⟩ := carries
  rw [pairs, sent]
  clear sent
  induction groups with
  | nil => rfl
  | cons group rest ih =>
      have wellFormed : ∀ c ∈ group, c.WellFormed := fun c hc => h c (List.mem_append_left _ hc)
      have readable : group.all Pair.isReadable = true :=
        List.all_eq_true.mpr fun c hc => (wellFormed c hc).readable
      have read : pairsOf (sentText group) = group.map fun c => (c.1, Text.trim c.2) := by
        rw [pairsOf_sentText, List.map_eq_flatMap]
        exact List.flatMap_congr fun c hc => (wellFormed c hc).pairsOf_text
      have text : Value.text? (Bytes.ofText (sentText group)) = some (sentText group) := by
        rw [text?_sentText, if_pos readable]
      rw [List.map_cons, List.filterMap_cons_some text, List.flatMap_cons, read,
        List.flatten_cons, List.map_append, ih fun c hc => h c (List.mem_append_right _ hc)]

/-- A cookie of a name is read as the first one of that name. -/
theorem lookup_pairs_of_carries (carries : Carries headers cookies)
    (h : ∀ c ∈ cookies, c.WellFormed) (name : String) :
    (pairs headers).lookup name = (cookies.lookup name).map Text.trim := by
  rw [pairs_of_carries carries h]
  exact Assoc.lookup_map Text.trim name cookies

end Carries

end Gatehouse.Http.Cookie
