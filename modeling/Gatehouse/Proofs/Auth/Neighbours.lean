import Gatehouse.Proofs.Assoc
import Gatehouse.Proofs.Auth.Jar

/-!
The session among the cookies of other applications.

Everything on the domain shares the `cookie` headers of a request, so the session is
found between pairs that nobody here has written. What a jar finds is told here by
the bytes of the headers alone: a header is split at `;`, a piece is the pair of a
name and a value if these stand around its first `=` with nothing but spaces and tabs
around them, and the first pair of a name counts (`StandsFirst`).

* `lookup_pairs_eq_some_iff`: of the readable headers a cookie is read exactly if its
  pair stands first among the pieces of its name, whatever the other pieces are.
* `session?_of_standsFirst`: so no neighbour hides the session.
* `unreadable_neighbour_hides_session`: a header with a byte that is not visible ASCII is
  passed over whole, with the session in it.
-/

namespace Gatehouse.Http.Cookie

/-- The byte between two pieces of a header. -/
def breakByte : UInt8 := 0x3B

/-- The byte between a name and its value. -/
def equalsByte : UInt8 := 0x3D

/-- A byte that may stand around a name or a value: a space or a tab. -/
def IsGap (b : UInt8) : Prop :=
  b = 0x20 ∨ b = 0x09

/-- An octet of a cookie value: visible ASCII without quotes, commas, semicolons and
backslashes. -/
def IsOctet (b : UInt8) : Prop :=
  b = 0x21 ∨ (0x23 ≤ b ∧ b ≤ 0x2B) ∨ (0x2D ≤ b ∧ b ≤ 0x3A) ∨ (0x3C ≤ b ∧ b ≤ 0x5B) ∨
    (0x5D ≤ b ∧ b ≤ 0x7E)

instance (b : UInt8) : Decidable (IsOctet b) :=
  inferInstanceAs (Decidable (_ ∨ _))

/-- The text is made of cookie octets. -/
def OfOctets (text : String) : Prop :=
  ∀ b ∈ Bytes.ofText text, IsOctet b

instance (text : String) : Decidable (OfOctets text) :=
  inferInstanceAs (Decidable (∀ b ∈ Bytes.ofText text, IsOctet b))

/-- The outer bytes are the inner ones with nothing but gaps around them. -/
def Around (outer inner : Bytes) : Prop :=
  ∃ a b, (∀ x ∈ a ++ b, IsGap x) ∧ outer = a ++ inner ++ b

/-- The piece is the pair of a name and a value. -/
def IsPair (piece name value : Bytes) : Prop :=
  ∃ l r, piece = l ++ equalsByte :: r ∧ Around l name ∧ Around r value

/-- Among the pieces of some headers the pair of the name and the value comes before
every other pair of that name. -/
def StandsFirst (fields : List Value) (name value : Bytes) : Prop :=
  ∃ front piece back, fields.flatMap (List.splitOn breakByte) = front ++ piece :: back ∧
    IsPair piece name value ∧ ∀ p ∈ front, ∀ v, ¬ IsPair p name v

/-- The headers of cookies that are readable. -/
def readableFields (headers : Headers) : List Value :=
  (headers.getAll "cookie").filter fun v => v.all Value.isReadable

/-! ### Bytes as characters -/

/-- Each byte as the character of that number. -/
def chars (bytes : Bytes) : List Char :=
  bytes.map Char.ofUInt8

theorem chars_append (a b : Bytes) : chars (a ++ b) = chars a ++ chars b :=
  List.map_append

theorem chars_cons (x : UInt8) (b : Bytes) : chars (x :: b) = Char.ofUInt8 x :: chars b :=
  rfl

theorem ofUInt8_injective : Function.Injective Char.ofUInt8 := by
  have back : Function.LeftInverse Char.toUInt8 Char.ofUInt8 := by
    intro b
    refine Bytes.forall_byte (fun b => (Char.ofUInt8 b).toUInt8 = b) ?_ b
    decide +kernel
  exact back.injective

theorem chars_injective : Function.Injective chars :=
  List.map_injective_iff.mpr ofUInt8_injective

/-- A readable byte is a readable character. -/
theorem isReadableChar_ofUInt8 (b : UInt8) :
    Value.isReadableChar (Char.ofUInt8 b) = Value.isReadable b := by
  refine Bytes.forall_byte (fun b => Value.isReadableChar (Char.ofUInt8 b) = Value.isReadable b)
    ?_ b
  decide +kernel

theorem isSpace_ofUInt8 (b : UInt8) :
    SetCookie.isSpace (Char.ofUInt8 b) = true ↔ IsGap b := by
  refine Bytes.forall_byte (fun b => SetCookie.isSpace (Char.ofUInt8 b) = true ↔
    b = 0x20 ∨ b = 0x09) ?_ b
  decide +kernel

/-- The pieces of a header are cut in the same places, byte by byte and character by
character. -/
theorem pieces_chars (v : Bytes) :
    Text.pieces ';' (chars v) = (List.splitOn breakByte v).map chars := by
  induction v with
  | nil => rfl
  | cons b rest ih =>
      have cut : Char.ofUInt8 b = ';' ↔ (b == breakByte) = true := by
        rw [beq_iff_eq]
        exact ⟨fun same => ofUInt8_injective same, fun same => same ▸ rfl⟩
      rw [chars_cons, Text.pieces, List.splitOn_cons_eq_if_modifyHead, ih]
      by_cases here : (b == breakByte) = true
      · rw [if_pos (cut.mpr here), if_pos here]
        rfl
      · rw [if_neg fun same => here (cut.mp same), if_neg here]
        cases List.splitOn breakByte rest <;> rfl

theorem mem_of_mem_splitOn {v piece : Bytes} {b : UInt8} (hp : piece ∈ List.splitOn breakByte v)
    (hb : b ∈ piece) : b ∈ v := by
  induction v generalizing piece with
  | nil =>
      rw [List.splitOn_nil, List.mem_singleton] at hp
      exact hp ▸ hb
  | cons first rest ih =>
      rw [List.splitOn_cons_eq_if_modifyHead] at hp
      split at hp
      · rcases List.mem_cons.mp hp with rfl | later
        · exact absurd hb List.not_mem_nil
        · exact List.mem_cons_of_mem _ (ih later hb)
      · cases hs : List.splitOn breakByte rest with
        | nil => exact absurd (hs ▸ hp) List.not_mem_nil
        | cons head tail =>
            rw [hs, List.modifyHead_cons] at hp
            rcases List.mem_cons.mp hp with rfl | later
            · rcases List.mem_cons.mp hb with rfl | inner
              · exact List.mem_cons_self
              · exact List.mem_cons_of_mem _ (ih (hs ▸ List.mem_cons_self) inner)
            · exact List.mem_cons_of_mem _ (ih (hs ▸ List.mem_cons_of_mem _ later) hb)

/-- What is read of all headers is read of the pieces of those that are readable. -/
theorem pairs_eq (headers : Headers) : pairs headers =
    ((readableFields headers).flatMap (List.splitOn breakByte)).filterMap
      fun piece => pair? (chars piece) := by
  rw [pairs, readableFields]
  induction headers.getAll "cookie" with
  | nil => rfl
  | cons v rest ih =>
      rw [List.filterMap_cons, List.filter_cons, Value.text?]
      split
      · rename_i unreadable
        split at unreadable
        · cases unreadable
        · rw [if_neg ‹_›]
          exact ih
      · rename_i text readable
        split at readable
        · cases readable
          rw [if_pos ‹_›, List.flatMap_cons, List.flatMap_cons, List.filterMap_append, ih, pairsOf,
            String.toList_ofList]
          refine congrArg (· ++ _) ?_
          exact (congrArg (List.filterMap pair?) (pieces_chars v)).trans List.filterMap_map
        · cases readable

theorem all_isReadable_of_mem {headers : Headers} {piece : Bytes}
    (h : piece ∈ (readableFields headers).flatMap (List.splitOn breakByte)) :
    ∀ c ∈ chars piece, Value.isReadableChar c = true := by
  obtain ⟨v, hv, hp⟩ := List.mem_flatMap.mp h
  obtain ⟨-, readable⟩ := List.mem_filter.mp hv
  intro c hc
  obtain ⟨b, hb, rfl⟩ := List.mem_map.mp hc
  rw [isReadableChar_ofUInt8]
  exact List.all_eq_true.mp readable b (mem_of_mem_splitOn hp hb)

/-! ### One piece -/

section Piece

open SetCookie (isSpace trimSpaces)

/-- What has no space in it is what is left of it between spaces. -/
theorem trimSpaces_eq_iff {cs kept : List Char} (solid : ∀ c ∈ kept, isSpace c = false) :
    trimSpaces cs = kept ↔
      ∃ a b, (∀ c ∈ a ++ b, isSpace c = true) ∧ cs = a ++ kept ++ b := by
  constructor
  · intro h
    have front : cs = cs.takeWhile isSpace ++ cs.dropWhile isSpace :=
      List.takeWhile_append_dropWhile.symm
    have back : cs.dropWhile isSpace =
        kept ++ ((cs.dropWhile isSpace).reverse.takeWhile isSpace).reverse := by
      rw [← h, trimSpaces, ← List.reverse_append, List.takeWhile_append_dropWhile,
        List.reverse_reverse]
    refine ⟨cs.takeWhile isSpace, _, ?_, front.trans (by rw [back, List.append_assoc])⟩
    intro c hc
    rcases List.mem_append.mp hc with before | after
    · exact List.mem_takeWhile_imp before
    · exact List.mem_takeWhile_imp (List.mem_reverse.mp after)
  · rintro ⟨a, b, spaces, rfl⟩
    have before : ∀ c ∈ a, isSpace c = true := fun c hc => spaces c (List.mem_append_left _ hc)
    have after : ∀ c ∈ b.reverse, isSpace c = true := fun c hc =>
      spaces c (List.mem_append_right _ (List.mem_reverse.mp hc))
    rw [trimSpaces, List.append_assoc, List.dropWhile_append_of_pos before]
    cases kept with
    | nil =>
        have gone : b.dropWhile isSpace = [] :=
          List.dropWhile_eq_nil_iff.mpr fun c hc => after c (List.mem_reverse.mpr hc)
        rw [List.nil_append, gone]
        rfl
    | cons first rest =>
        have stays : (first :: rest ++ b).dropWhile isSpace = first :: rest ++ b := by
          rw [List.cons_append, List.dropWhile_cons_of_neg]
          rw [solid first List.mem_cons_self]
          decide
        have whole := SetCookie.trimSpaces_eq_self solid
        rw [trimSpaces, List.dropWhile_cons_of_neg (by simp [solid first List.mem_cons_self])]
          at whole
        rw [stays, List.reverse_append, List.dropWhile_append_of_pos after]
        exact whole

/-- A text of octets has readable characters only, and no space. -/
theorem OfOctets.solid {text : String} (h : OfOctets text) :
    ∀ c ∈ text.toList, Value.isReadableChar c = true ∧ isSpace c = false ∧ c ≠ ';' := by
  intro c hc
  have octets : ∀ b ∈ String.utf8EncodeChar c, IsOctet b := by
    intro b hb
    refine h b ?_
    rw [Bytes.ofText_eq]
    exact List.mem_flatMap.mpr ⟨c, hc, hb⟩
  have ascii : c.toNat < 128 := by
    refine Decidable.byContradiction fun wide => ?_
    obtain ⟨b, rest, hb⟩ := List.exists_cons_of_ne_nil (String.utf8EncodeChar_ne_nil (c := c))
    have mem : b ∈ String.utf8EncodeChar c := by simp [hb]
    have low : IsOctet b → b < 0x80 := by
      refine Bytes.forall_byte (fun b => IsOctet b → b < 0x80) ?_ b
      decide +kernel
    exact UInt8.not_lt.mpr (Bytes.le_of_mem_utf8EncodeChar wide mem) (low (octets b mem))
  exact Bytes.forall_ascii (fun c => (∀ b ∈ String.utf8EncodeChar c, IsOctet b) →
    Value.isReadableChar c = true ∧ isSpace c = false ∧ c ≠ ';') (by decide +kernel) c ascii octets

/-- The bytes of a readable text are its characters. -/
theorem chars_ofText {text : String} (readable : ∀ c ∈ text.toList, Value.isReadableChar c = true) :
    chars (Bytes.ofText text) = text.toList := by
  rw [chars, Bytes.ofText_eq]
  exact Value.map_ofUInt8_of_readable (List.all_eq_true.mpr readable)

theorem around_iff {outer inner : Bytes} (solid : ∀ c ∈ chars inner, isSpace c = false) :
    trimSpaces (chars outer) = chars inner ↔ Around outer inner := by
  have gaps : ∀ bytes : Bytes, (∀ c ∈ chars bytes, isSpace c = true) ↔ ∀ x ∈ bytes, IsGap x := by
    intro bytes
    rw [chars, List.forall_mem_map]
    exact forall₂_congr fun b _ => isSpace_ofUInt8 b
  rw [trimSpaces_eq_iff solid]
  constructor
  · rintro ⟨a, b, spaces, same⟩
    obtain ⟨front, b', rfl, whole, rfl⟩ := List.map_eq_append_iff.mp same
    obtain ⟨a', inner', rfl, rfl, kept⟩ := List.map_eq_append_iff.mp whole
    obtain rfl := chars_injective kept
    exact ⟨a', b', (gaps _).mp (by rwa [chars_append]), rfl⟩
  · rintro ⟨a, b, spaces, rfl⟩
    exact ⟨chars a, chars b, by rw [← chars_append]; exact (gaps _).mpr spaces,
      by rw [chars_append, chars_append]⟩

theorem Around.notMem {outer inner : Bytes} (h : Around outer inner) {c : Char}
    (visible : isSpace c = false) (inside : c ∉ chars inner) : c ∉ chars outer := by
  obtain ⟨a, b, gaps, rfl⟩ := h
  have outside : ∀ bytes : Bytes, (∀ x ∈ bytes, IsGap x) → c ∉ chars bytes := by
    intro bytes gaps mem
    obtain ⟨x, hx, rfl⟩ := List.mem_map.mp mem
    rw [(isSpace_ofUInt8 x).mpr (gaps x hx)] at visible
    cases visible
  rw [chars_append, chars_append, List.mem_append, List.mem_append]
  rintro ((mem | mem) | mem)
  · exact outside a (fun x hx => gaps x (List.mem_append_left _ hx)) mem
  · exact inside mem
  · exact outside b (fun x hx => gaps x (List.mem_append_right _ hx)) mem

/-- A piece is read as a pair if it has a `=` and a name before the first one. -/
theorem pair?_eq_some {piece : List Char} {name value : String} (filled : name ≠ "") :
    pair? piece = some (name, value) ↔ ∃ l r, (piece = l ++ '=' :: r ∧ '=' ∉ l) ∧
      Text.trimChars l = name.toList ∧ String.ofList (Text.trimChars r) = value := by
  simp only [← Text.cutChars_eq_some_iff]
  constructor
  · intro h
    rw [pair?] at h
    split at h
    · cases h
    · rename_i l r cut
      refine ⟨l, r, cut, ?_⟩
      simp only [Option.ite_none_left_eq_some, Option.some.injEq, Prod.mk.injEq] at h
      obtain ⟨-, own, held⟩ := h
      exact ⟨by rw [← own, String.toList_ofList], held⟩
  · rintro ⟨l, r, cut, own, held⟩
    have chars : name.toList ≠ [] := fun h => filled (String.toList_eq_nil_iff.mp h)
    rw [pair?, cut]
    simp only [own, held, if_neg chars, String.ofList_toList]

variable {piece : Bytes} {name value : String}
  (readable : ∀ c ∈ chars piece, Value.isReadableChar c = true)
  (named : SetCookie.IsName name) (octets : OfOctets name)

include readable named octets

/-- A readable piece is read as a pair of the name exactly if the name stands before its
first `=`. -/
theorem pair?_chars_iff : pair? (chars piece) = some (name, value) ↔
    ∃ l r, piece = l ++ equalsByte :: r ∧ Around l (Bytes.ofText name) ∧
      String.ofList (trimSpaces (chars r)) = value := by
  have shown : chars (Bytes.ofText name) = name.toList :=
    chars_ofText fun c hc => (octets.solid c hc).1
  have around : ∀ l, trimSpaces (chars l) = name.toList ↔ Around l (Bytes.ofText name) := by
    intro l
    rw [← shown]
    exact around_iff fun c hc => (octets.solid c (shown ▸ hc)).2.1
  have halves : ∀ {l r : Bytes}, piece = l ++ equalsByte :: r →
      Text.trimChars (chars l) = trimSpaces (chars l) ∧
        Text.trimChars (chars r) = trimSpaces (chars r) := by
    rintro l r rfl
    rw [chars_append, chars_cons] at readable
    exact ⟨SetCookie.trimChars_eq_trimSpaces fun c hc => readable c (List.mem_append_left _ hc),
      SetCookie.trimChars_eq_trimSpaces fun c hc =>
        readable c (List.mem_append_right _ (List.mem_cons_of_mem _ hc))⟩
  rw [pair?_eq_some named.1]
  constructor
  · rintro ⟨left, right, ⟨whole, -⟩, own, held⟩
    obtain ⟨l, back, same, rfl, later⟩ := List.map_eq_append_iff.mp whole
    obtain ⟨e, r, rfl, equals, rfl⟩ := List.map_eq_cons_iff.mp later
    obtain rfl : e = equalsByte := ofUInt8_injective equals
    obtain ⟨front, rear⟩ := halves same
    exact ⟨l, r, same, (around l).mp (front.symm.trans own), by rw [← rear]; exact held⟩
  · rintro ⟨l, r, same, before, held⟩
    obtain ⟨front, rear⟩ := halves same
    have first : '=' ∉ chars l :=
      before.notMem (by decide) fun mem => (named.2 _ (shown ▸ mem)).2 rfl
    have whole : chars piece = chars l ++ '=' :: chars r := by
      rw [same, chars_append]
      rfl
    exact ⟨chars l, chars r, ⟨whole, first⟩, front.trans ((around l).mpr before), by rwa [rear]⟩

/-- **A readable piece is read as the pair that it is.** -/
theorem pair?_eq_some_iff (held : OfOctets value) :
    pair? (chars piece) = some (name, value) ↔
      IsPair piece (Bytes.ofText name) (Bytes.ofText value) := by
  have shown : chars (Bytes.ofText value) = value.toList :=
    chars_ofText fun c hc => (held.solid c hc).1
  have around : ∀ r, String.ofList (trimSpaces (chars r)) = value ↔
      Around r (Bytes.ofText value) := by
    intro r
    rw [← around_iff fun c hc => (held.solid c (shown ▸ hc)).2.1, shown]
    exact ⟨fun same => by rw [← same, String.toList_ofList],
      fun same => by rw [same, String.ofList_toList]⟩
  rw [pair?_chars_iff readable named octets]
  simp only [around]
  rfl

/-- A readable piece is read as some pair of the name exactly if it is one. -/
theorem exists_pair?_iff : (∃ value, pair? (chars piece) = some (name, value)) ↔
    ∃ v, IsPair piece (Bytes.ofText name) v := by
  constructor
  · rintro ⟨value, read⟩
    obtain ⟨l, r, same, before, -⟩ := (pair?_chars_iff readable named octets).mp read
    exact ⟨r, l, r, same, before, [], [], by simp, by simp⟩
  · rintro ⟨v, l, r, same, before, -⟩
    exact ⟨_, (pair?_chars_iff readable named octets).mpr ⟨l, r, same, before, rfl⟩⟩

end Piece

/-! ### The first pair of a name -/

/-- **What is read for a name** is the value of its first pair in the readable headers,
whatever the other pieces of these are. -/
theorem lookup_pairs_eq_some_iff {headers : Headers} {name value : String}
    (named : SetCookie.IsName name) (octets : OfOctets name) (held : OfOctets value) :
    (pairs headers).lookup name = some value ↔
      StandsFirst (readableFields headers) (Bytes.ofText name) (Bytes.ofText value) := by
  have readable : ∀ piece ∈ (readableFields headers).flatMap (List.splitOn breakByte),
      ∀ c ∈ chars piece, Value.isReadableChar c = true := fun _ => all_isReadable_of_mem
  rw [pairs_eq, Assoc.lookup_filterMap_eq_some_iff]
  constructor
  · rintro ⟨front, piece, back, same, read, others⟩
    rw [same] at readable
    refine ⟨front, piece, back, same, ?_, ?_⟩
    · exact (pair?_eq_some_iff (readable piece (by simp)) named octets held).mp read
    · intro p hp v pair
      obtain ⟨w, again⟩ := (exists_pair?_iff (readable p (by simp [hp])) named octets).mpr ⟨v, pair⟩
      exact others p hp w again
  · rintro ⟨front, piece, back, same, pair, others⟩
    rw [same] at readable
    refine ⟨front, piece, back, same, ?_, ?_⟩
    · exact (pair?_eq_some_iff (readable piece (by simp)) named octets held).mpr pair
    · intro p hp w read
      obtain ⟨v, again⟩ := (exists_pair?_iff (readable p (by simp [hp])) named octets).mp ⟨w, read⟩
      exact others p hp v again

end Gatehouse.Http.Cookie

namespace Gatehouse.Auth.Jar

open Http Cookie

theorem ofOctets_sessionCookie : OfOctets sessionCookie := by decide +kernel

/-- **Other cookies never hide the session**: the jar has the session of the first
pair of that name in the readable headers. -/
theorem session?_of_standsFirst {headers : Headers} {t : String} (secure : Bool)
    (filled : t ≠ "") (octets : OfOctets t)
    (first : StandsFirst (readableFields headers) (Bytes.ofText sessionCookie) (Bytes.ofText t)) :
    (Jar.ofHeaders headers secure).session? = some t := by
  have read : (pairs headers).lookup sessionCookie = some t :=
    (lookup_pairs_eq_some_iff isName_sessionCookie ofOctets_sessionCookie octets).mpr first
  have kept : (Jar.ofHeaders headers secure).incoming.lookup sessionCookie = some t := read
  rw [session?, read?, kept, Option.filter_some, if_pos]
  simpa using filled

/-- Neighbours of three kinds before the session: an unreadable header, a piece that is no
pair, and a pair of another name. A second session comes too late. -/
def crowdedHeaders : Headers :=
  [("cookie", Bytes.ofText "flowra_session=é"),
    ("cookie", Bytes.ofText "broken;theme=\"a,b\"; flowra_session = abc;flowra_session=late")]

theorem session_found_among_neighbours :
    StandsFirst (readableFields crowdedHeaders) (Bytes.ofText sessionCookie)
      (Bytes.ofText "abc") ∧
    (Jar.ofHeaders crowdedHeaders true).session? = some "abc" := by
  have first : StandsFirst (readableFields crowdedHeaders) (Bytes.ofText sessionCookie)
      (Bytes.ofText "abc") := by
    refine ⟨[Bytes.ofText "broken", Bytes.ofText "theme=\"a,b\""],
      Bytes.ofText " flowra_session = abc", [Bytes.ofText "flowra_session=late"],
      by decide +kernel, ?_, ?_⟩
    · exact ⟨Bytes.ofText " flowra_session ", Bytes.ofText " abc", by decide,
        ⟨[0x20], [0x20], by simp [IsGap], by decide⟩, [0x20], [], by simp [IsGap], by decide⟩
    · intro p hp v pair
      have checked : [Bytes.ofText "broken", Bytes.ofText "theme=\"a,b\""].all (fun p =>
          (chars p).all Value.isReadableChar &&
            (pair? (chars p)).map Prod.fst != some sessionCookie) = true := by decide +kernel
      obtain ⟨visible, other⟩ := Bool.and_eq_true_iff.mp (List.all_eq_true.mp checked p hp)
      obtain ⟨w, read⟩ := (exists_pair?_iff (List.all_eq_true.mp visible) isName_sessionCookie
        ofOctets_sessionCookie).mpr ⟨v, pair⟩
      rw [read] at other
      exact bne_iff_ne.mp other rfl
  exact ⟨first, session?_of_standsFirst true (by decide) (by decide +kernel) first⟩

/-- One header with a letter beyond ASCII in the cookie of another application. -/
def mixedHeaders : Headers :=
  [("cookie", Bytes.ofText "flowra_session=abc; other=é")]

/-- The session is the first of all pairs and is not found. -/
theorem unreadable_neighbour_hides_session :
    StandsFirst (mixedHeaders.getAll "cookie") (Bytes.ofText sessionCookie)
      (Bytes.ofText "abc") ∧ OfOctets "abc" ∧
    (Jar.ofHeaders mixedHeaders false).session? = none := by
  refine ⟨⟨[], Bytes.ofText "flowra_session=abc", [Bytes.ofText " other=é"], by decide +kernel,
    ?_, ?_⟩, by decide +kernel, by decide⟩
  · exact ⟨Bytes.ofText "flowra_session", Bytes.ofText "abc", by decide,
      ⟨[], [], by simp, by decide⟩, [], [], by simp, by decide⟩
  · exact fun p hp => absurd hp List.not_mem_nil

end Gatehouse.Auth.Jar
