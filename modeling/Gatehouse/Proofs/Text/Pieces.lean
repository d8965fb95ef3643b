import Gatehouse.Text.Blank
import Mathlib.Data.List.DropRight

/-!
Cutting texts that were joined.

A text joined with a separator is cut back into its parts, as long as no part
has the separator in it. Trimming leaves a text alone that has nothing to trim.
-/

namespace Gatehouse.Text

variable {sep : Char} {a b cs : List Char}

/-- What precedes the first separator belongs to the first piece. -/
theorem pieces_append (h : sep ∉ a) (b : List Char) :
    pieces sep (a ++ b) = (pieces sep b).modifyHead (a ++ ·) := by
  induction a with
  | nil => cases hb : pieces sep b <;> simp [hb]
  | cons c rest ih =>
      obtain ⟨ne, later⟩ := List.ne_and_not_mem_of_not_mem_cons h
      rw [List.cons_append, pieces, if_neg (Ne.symm ne), ih later]
      cases pieces sep b <;> simp

theorem pieces_of_not_mem (h : sep ∉ a) : pieces sep a = [a] := by
  have whole := pieces_append h []
  rwa [List.append_nil, pieces, List.modifyHead_cons, List.append_nil] at whole

/-- A separator ends the pieces before it. -/
theorem pieces_append_sep (sep : Char) (a b : List Char) :
    pieces sep (a ++ sep :: b) = pieces sep a ++ pieces sep b := by
  induction a with
  | nil => simp [pieces]
  | cons c rest ih =>
      rw [List.cons_append, pieces, pieces]
      split
      · rw [ih, List.cons_append]
      · rw [ih]
        cases hp : pieces sep rest with
        | nil => exact absurd hp (pieces_ne_nil sep rest)
        | cons p ps => simp

/-- The last piece of a text and the first piece of what follows are one. -/
theorem pieces_append_of_eq {last first : List Char} {front rest : List (List Char)}
    (ha : pieces sep a = front ++ [last])
    (hb : pieces sep b = first :: rest) :
    pieces sep (a ++ b) = front ++ (last ++ first) :: rest := by
  induction a generalizing front last with
  | nil =>
      have whole : [] ++ [[]] = front ++ [last] := ha
      obtain ⟨rfl, same⟩ := List.append_inj' whole rfl
      cases same
      exact hb
  | cons c cs ih =>
      rw [List.cons_append, pieces] at *
      split at ha
      · rename_i cut
        cases front with
        | nil => exact absurd (List.cons.inj ha).2 (pieces_ne_nil sep cs)
        | cons p front =>
            obtain ⟨rfl, later⟩ := List.cons.inj ha
            rw [if_pos cut, ih later]
            rfl
      · rename_i ne
        rw [if_neg ne]
        cases hp : pieces sep cs with
        | nil => exact absurd hp (pieces_ne_nil sep cs)
        | cons p ps =>
            rw [hp, List.modifyHead_cons] at ha
            cases front with
            | nil =>
                obtain ⟨rfl, rfl⟩ := List.cons.inj ha
                have later : pieces sep (cs ++ b) = [] ++ (p ++ first) :: rest := ih hp
                rw [later]
                rfl
            | cons q front =>
                obtain ⟨rfl, rfl⟩ := List.cons.inj ha
                have later : pieces sep (cs ++ b) = (p :: front) ++ (last ++ first) :: rest := ih hp
                rw [later]
                rfl

/-- A text of one piece has no separator in it. -/
theorem not_mem_of_pieces_eq_singleton {piece : List Char} (h : pieces sep cs = [piece]) :
    sep ∉ cs := by
  intro mem
  obtain ⟨front, back, rfl⟩ := List.append_of_mem mem
  rw [pieces_append_sep] at h
  have first := List.length_pos_iff.mpr (pieces_ne_nil sep front)
  have second := List.length_pos_iff.mpr (pieces_ne_nil sep back)
  have both := congrArg List.length h
  rw [List.length_append, List.length_singleton] at both
  omega

/-- Parts behind separators are read back. -/
theorem pieces_append_flatMap {parts : List (List Char)} (h : ∀ part ∈ parts, sep ∉ part)
    (a : List Char) :
    pieces sep (a ++ parts.flatMap (sep :: ·)) = pieces sep a ++ parts := by
  induction parts generalizing a with
  | nil => simp
  | cons part rest ih =>
      have later := ih (fun p hp => h p (List.mem_cons_of_mem _ hp)) part
      rw [List.flatMap_cons, List.cons_append, pieces_append_sep, later,
        pieces_of_not_mem (h part List.mem_cons_self), List.singleton_append]

/-- Joined parts are read back. -/
theorem pieces_intercalate {parts : List (List Char)} (h : ∀ part ∈ parts, sep ∉ part)
    (filled : parts ≠ []) : pieces sep ([sep].intercalate parts) = parts := by
  have joined : ∀ (part : List Char) (rest : List (List Char)),
      [sep].intercalate (part :: rest) = part ++ rest.flatMap (sep :: ·) := by
    intro part rest
    induction rest generalizing part with
    | nil => simp [List.intercalate]
    | cons next rest ih => rw [List.intercalate_cons_cons, ih, List.flatMap_cons]; simp
  cases parts with
  | nil => exact absurd rfl filled
  | cons part rest =>
      rw [joined, pieces_append_flatMap fun p hp => h p (List.mem_cons_of_mem _ hp),
        pieces_of_not_mem (h part List.mem_cons_self), List.singleton_append]

/-- The pieces of a text are joined to the text again. -/
theorem intercalate_pieces (sep : Char) (cs : List Char) :
    [sep].intercalate (pieces sep cs) = cs := by
  induction cs with
  | nil => rfl
  | cons c rest ih =>
      rw [pieces]
      cases hp : pieces sep rest with
      | nil => exact absurd hp (pieces_ne_nil sep rest)
      | cons p ps =>
          rw [hp] at ih
          split
          · rename_i here
            rw [List.intercalate_cons_cons, ih, here]
            rfl
          · rw [List.modifyHead_cons, ← ih]
            cases ps with
            | nil => rw [List.intercalate_singleton, List.intercalate_singleton]
            | cons q qs =>
                rw [List.intercalate_cons_cons, List.intercalate_cons_cons, List.cons_append,
                  List.cons_append]

/-- A character of joined parts is one of a part or of what joins them. -/
theorem mem_intercalate {c : Char} {parts : List (List Char)} (mem : c ∈ a.intercalate parts) :
    c ∈ a ∨ ∃ part ∈ parts, c ∈ part := by
  induction parts with
  | nil => cases mem
  | cons part rest ih =>
      cases rest with
      | nil =>
          rw [List.intercalate_singleton] at mem
          exact .inr ⟨part, List.mem_cons_self, mem⟩
      | cons next rest =>
          rw [List.intercalate_cons_cons, List.mem_append, List.mem_append] at mem
          rcases mem with (here | between) | later
          · exact .inr ⟨part, List.mem_cons_self, here⟩
          · exact .inl between
          · exact (ih later).imp_right fun ⟨p, hp, hc⟩ => ⟨p, List.mem_cons_of_mem _ hp, hc⟩

/-- No piece has a separator in it. -/
theorem not_mem_of_mem_pieces {piece : List Char} (h : piece ∈ pieces sep cs) : sep ∉ piece := by
  induction cs generalizing piece with
  | nil =>
      rw [pieces, List.mem_singleton] at h
      rw [h]
      exact List.not_mem_nil
  | cons c rest ih =>
      rw [pieces] at h
      split at h
      · rcases List.mem_cons.mp h with rfl | later
        · exact List.not_mem_nil
        · exact ih later
      · rename_i ne
        cases hp : pieces sep rest with
        | nil => exact absurd hp (pieces_ne_nil sep rest)
        | cons p ps =>
            rw [hp, List.modifyHead_cons] at h
            rcases List.mem_cons.mp h with rfl | later
            · exact List.not_mem_cons_of_ne_of_not_mem (Ne.symm ne) (ih (hp ▸ List.mem_cons_self))
            · exact ih (hp ▸ List.mem_cons_of_mem _ later)

/-- The pieces of a text have no other characters than the text. -/
theorem mem_of_mem_pieces {piece : List Char} {c : Char} (h : piece ∈ pieces sep cs)
    (mem : c ∈ piece) : c ∈ cs := by
  induction cs generalizing piece with
  | nil =>
      rw [pieces, List.mem_singleton] at h
      rwa [h] at mem
  | cons d rest ih =>
      rw [pieces] at h
      split at h
      · rcases List.mem_cons.mp h with rfl | later
        · cases mem
        · exact List.mem_cons_of_mem _ (ih later mem)
      · cases hp : pieces sep rest with
        | nil => exact absurd hp (pieces_ne_nil sep rest)
        | cons p ps =>
            rw [hp, List.modifyHead_cons] at h
            rcases List.mem_cons.mp h with rfl | later
            · rcases List.mem_cons.mp mem with rfl | mem
              · exact List.mem_cons_self
              · exact List.mem_cons_of_mem _ (ih (hp ▸ List.mem_cons_self) mem)
            · exact List.mem_cons_of_mem _ (ih (hp ▸ List.mem_cons_of_mem _ later) mem)

/-- A text is cut at its first separator. -/
theorem cutChars_append (h : sep ∉ a) (b : List Char) :
    cutChars sep (a ++ sep :: b) = some (a, b) := by
  induction a with
  | nil => simp [cutChars]
  | cons c rest ih =>
      obtain ⟨ne, later⟩ := List.ne_and_not_mem_of_not_mem_cons h
      rw [List.cons_append, cutChars, if_neg (Ne.symm ne), ih later]
      rfl

theorem cutChars_eq_some_iff : cutChars sep cs = some (a, b) ↔ cs = a ++ sep :: b ∧ sep ∉ a := by
  constructor
  · intro h
    induction cs generalizing a with
    | nil => cases h
    | cons c rest ih =>
        rw [cutChars] at h
        split at h
        · rename_i here
          cases h
          exact ⟨by rw [here, List.nil_append], List.not_mem_nil⟩
        · rename_i ne
          obtain ⟨⟨front, back⟩, later, same⟩ := Option.map_eq_some_iff.mp h
          cases same
          obtain ⟨rfl, free⟩ := ih later
          exact ⟨rfl, List.not_mem_cons_of_ne_of_not_mem (Ne.symm ne) free⟩
  · rintro ⟨rfl, free⟩
    exact cutChars_append free b

/-- Nothing is dropped at either end where nothing is to be dropped at all. -/
theorem dropEnds_eq_self {p : Char → Bool} (h : ∀ c ∈ cs, p c = false) :
    ((cs.dropWhile p).reverse.dropWhile p).reverse = cs := by
  have kept : ∀ l : List Char, (∀ c ∈ l, p c = false) → l.dropWhile p = l := by
    intro l hl
    cases l with
    | nil => rfl
    | cons c rest => simp [hl c List.mem_cons_self]
  rw [kept cs h, kept _ fun c hc => h c (List.mem_reverse.mp hc), List.reverse_reverse]

/-- Where both ends were dropped, nothing is left to drop. -/
theorem dropEnds_dropEnds (p : Char → Bool) (cs : List Char) :
    ((((cs.dropWhile p).reverse.dropWhile p).reverse.dropWhile p).reverse.dropWhile p).reverse =
      ((cs.dropWhile p).reverse.dropWhile p).reverse := by
  have front : ((cs.dropWhile p).rdropWhile p).dropWhile p = (cs.dropWhile p).rdropWhile p := by
    have kept := List.rdropWhile_prefix p (cs.dropWhile p)
    refine List.dropWhile_eq_self_iff.mpr fun filled => ?_
    rw [kept.getElem filled]
    exact List.dropWhile_eq_self_iff.mp (List.dropWhile_idempotent p cs) _
  calc
    _ = (((cs.dropWhile p).rdropWhile p).dropWhile p).rdropWhile p := rfl
    _ = ((cs.dropWhile p).rdropWhile p).rdropWhile p := by rw [front]
    _ = (cs.dropWhile p).rdropWhile p := List.rdropWhile_idempotent p _

theorem trim_eq_self {s : String} (h : ∀ c ∈ s.toList, isBlank c = false) : trim s = s := by
  rw [trim, trimChars, dropEnds_eq_self h, String.ofList_toList]

end Gatehouse.Text
