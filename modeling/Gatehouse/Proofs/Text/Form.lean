import Gatehouse.Proofs.Text.Percent
import Gatehouse.Proofs.Text.Pieces
import Gatehouse.Proofs.Text.Utf8
import Gatehouse.Text.Form

/-!
Queries that are written and read again.

No name and no value has a mark in it once it is encoded, so a query is cut where it was
joined, and a pair where it was.

* `decode_encode`: the pairs of a query are read back.
* `decode_append`: what stands behind a query is read by itself.
* `lastValue?_of_decode`: the last pair of a query gives the last value of its name.
-/

namespace Gatehouse.Text.Form

/-- The marks that cut an address, a query or a pair. -/
def marks : List Char := ['#', '?', '&', '=']

/-- The byte that a `+` stands for, and every other byte. -/
def unplus (b : UInt8) : UInt8 :=
  if b == 0x2B then 0x20 else b

/-- The last value of a name in a query. -/
def lastValue? (name query : String) : Option String :=
  (decode query).reverse.lookup name

variable {mark : Char} {name value query : String} {pairs : List Pair}

/-! ### Names and values -/

theorem not_mem_encodeText (h : mark ∈ marks) (s : String) : mark ∉ (encodeText s).toList := by
  have byte : ∀ b : UInt8, (marks.all fun mark => mark ∉ encodeByte b) = true := by
    refine Bytes.forall_byte (fun b => (marks.all fun mark => mark ∉ encodeByte b) = true) ?_
    decide +kernel
  rw [encodeText, String.toList_ofList, List.mem_flatMap]
  rintro ⟨b, -, mem⟩
  exact of_decide_eq_true (List.all_eq_true.mp (byte b) mark h) mem

theorem decode_encodeByte (b : UInt8) (rest : Bytes) :
    Percent.decode (((encodeByte b).flatMap String.utf8EncodeChar).map unplus ++ rest) =
      b :: Percent.decode rest := by
  have kept : ∀ b : UInt8, isPlain b = true → b < 0x80 ∧ b ≠ Percent.sign := by
    intro b
    refine Bytes.forall_byte (fun b => isPlain b = true → b < 0x80 ∧ b ≠ Percent.sign) ?_ b
    decide +kernel
  -- A `+` is written for a space only.
  have plusless : ((Percent.encodeByte isPlain b).flatMap String.utf8EncodeChar).map unplus =
      (Percent.encodeByte isPlain b).flatMap String.utf8EncodeChar := by
    refine Bytes.forall_byte (fun b => ((Percent.encodeByte isPlain b).flatMap
      String.utf8EncodeChar).map unplus =
        (Percent.encodeByte isPlain b).flatMap String.utf8EncodeChar) ?_ b
    decide +kernel
  unfold encodeByte
  split
  · rename_i space
    obtain rfl := eq_of_beq space
    exact Percent.decode_cons_of_ne (by decide) rest
  · rw [plusless, Percent.decode_encodeByte kept]

/-- **An encoded text is read back.** -/
theorem decodeText_encodeText (s : String) : decodeText (encodeText s) = s := by
  have bytes : ∀ bytes : Bytes, Percent.decode
      (((bytes.flatMap encodeByte).flatMap String.utf8EncodeChar).map unplus) = bytes := by
    intro bytes
    induction bytes with
    | nil => rfl
    | cons b rest ih =>
        rw [List.flatMap_cons, List.flatMap_append, List.map_append, decode_encodeByte, ih]
  have written : Bytes.ofText (encodeText s) =
      ((Bytes.ofText s).flatMap encodeByte).flatMap String.utf8EncodeChar := by
    rw [Bytes.ofText_eq (encodeText s), encodeText, String.toList_ofList]
  have read : decodeText (encodeText s) =
      Bytes.lenient (Percent.decode ((Bytes.ofText (encodeText s)).map unplus)) := rfl
  rw [read, written, bytes, Bytes.lenient_ofText]

/-- A text of bytes that stand for themselves is written as it is. -/
theorem encodeText_eq_self {s : String}
    (plain : ∀ c ∈ s.toList, (String.utf8EncodeChar c).flatMap encodeByte = [c]) :
    encodeText s = s := by
  have chars : ∀ cs : List Char, (∀ c ∈ cs, (String.utf8EncodeChar c).flatMap encodeByte = [c]) →
      (cs.flatMap String.utf8EncodeChar).flatMap encodeByte = cs := by
    intro cs
    induction cs with
    | nil => exact fun _ => rfl
    | cons c rest ih =>
        intro plain
        rw [List.flatMap_cons, List.flatMap_append, plain c List.mem_cons_self,
          ih fun d hd => plain d (List.mem_cons_of_mem _ hd), List.singleton_append]
  rw [encodeText, Bytes.ofText_eq, chars s.toList plain, String.ofList_toList]

/-! ### Pairs -/

theorem toList_encodePair (pair : Pair) : (encodePair pair).toList =
    (encodeText pair.1).toList ++ '=' :: (encodeText pair.2).toList := by
  simp [encodePair, String.toList_append]

theorem decodePair_encodePair (pair : Pair) : decodePair (encodePair pair) = pair := by
  have cuts : cut '=' (encodePair pair) = some (encodeText pair.1, encodeText pair.2) := by
    rw [cut, toList_encodePair, cutChars_append (not_mem_encodeText (by simp [marks]) pair.1),
      Option.map_some, String.ofList_toList, String.ofList_toList]
  rw [decodePair, cuts]
  simp only [decodeText_encodeText]

theorem not_mem_encodePair (h : mark ∈ ['#', '?', '&']) (pair : Pair) :
    mark ∉ (encodePair pair).toList := by
  have known : mark ∈ marks ∧ mark ≠ '=' := by
    simp only [List.mem_cons, List.not_mem_nil, or_false] at h
    rcases h with rfl | rfl | rfl <;> decide
  rw [toList_encodePair, List.mem_append, List.mem_cons, not_or, not_or]
  exact ⟨not_mem_encodeText known.1 pair.1, known.2, not_mem_encodeText known.1 pair.2⟩

/-! ### Queries -/

theorem toList_encode (pairs : List Pair) : (encode pairs).toList =
    ['&'].intercalate (pairs.map fun pair => (encodePair pair).toList) := by
  rw [encode, String.toList_intercalate, List.map_map]
  rfl

/-- **The pairs of a query are read back**, in their order. -/
theorem decode_encode (pairs : List Pair) : decode (encode pairs) = pairs := by
  by_cases none : pairs = []
  · rw [none]
    rfl
  · have whole : ∀ part ∈ pairs.map fun pair => (encodePair pair).toList, '&' ∉ part := by
      intro part mem
      obtain ⟨pair, -, rfl⟩ := List.mem_map.mp mem
      exact not_mem_encodePair (by simp) pair
    have cuts : split '&' (encode pairs) = pairs.map encodePair := by
      rw [split, toList_encode, pieces_intercalate whole (by simpa using none), List.map_map]
      exact List.map_congr_left fun pair _ => String.ofList_toList
    have filled : ∀ piece ∈ pairs.map encodePair, (!piece.isEmpty) = true := by
      intro piece mem
      obtain ⟨pair, -, rfl⟩ := List.mem_map.mp mem
      have chars : (encodePair pair).toList ≠ [] := by simp [toList_encodePair]
      simpa using fun empty => chars (String.toList_eq_nil_iff.mpr empty)
    rw [decode, cuts, List.filter_eq_self.mpr filled, List.map_map]
    exact (List.map_congr_left fun pair _ => decodePair_encodePair pair).trans (List.map_id pairs)

/-- **What stands behind a query is read by itself.** -/
theorem decode_append (query added : String) :
    decode (query ++ "&" ++ added) = decode query ++ decode added := by
  have joined : (query ++ "&" ++ added).toList = query.toList ++ '&' :: added.toList := by
    simp [String.toList_append]
  rw [decode, split, joined, pieces_append_sep, List.map_append, List.filter_append,
    List.map_append]
  rfl

theorem not_mem_encode (h : mark ∈ ['#', '?']) (pairs : List Pair) :
    mark ∉ (encode pairs).toList := by
  have known : mark ∈ ['#', '?', '&'] ∧ mark ∉ ['&'] := by
    simp only [List.mem_cons, List.not_mem_nil, or_false] at h
    rcases h with rfl | rfl <;> decide
  intro mem
  rw [toList_encode] at mem
  rcases mem_intercalate mem with between | ⟨part, written, mem⟩
  · exact known.2 between
  · obtain ⟨pair, -, rfl⟩ := List.mem_map.mp written
    exact not_mem_encodePair known.1 pair mem

/-- The last pair of a query gives the last value of its name. -/
theorem lastValue?_of_decode {front : List Pair} (read : decode query = front ++ [(name, value)]) :
    lastValue? name query = some value := by
  rw [lastValue?, read, List.reverse_append, List.reverse_singleton, List.singleton_append,
    List.lookup_cons_self]

end Gatehouse.Text.Form
