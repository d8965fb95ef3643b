import Gatehouse.Json.Reader
import Gatehouse.Proofs.Json.Number

/-!
The tokens of JSON texts.

A text is cut into marks, words, numbers and strings, with blanks between them. A word ends
before the first character that is no letter and a number before the first that no number
holds; a string ends at the first quote that no backslash stands before. `Lexes` says which
tokens a text is cut into without a word on how it is gone through.

* `cutFrom?_of_lexes`: a text is cut into the tokens that it is written in.
* `tokens?_eq_some_iff`: the tokens of a text are those that it is written in.
-/

namespace Gatehouse.Json

/-! ### Texts and their tokens -/

/-- The blanks that may stand between tokens. -/
def IsBlank (c : Char) : Prop :=
  c = ' ' ∨ c = '\n' ∨ c = '\t' ∨ c = '\r'

/-- The tokens of one character. -/
inductive IsMark : Char → Token → Prop
  | openArray : IsMark '[' .openArray
  | closeArray : IsMark ']' .closeArray
  | openObject : IsMark '\x7B' .openObject
  | closeObject : IsMark '\x7D' .closeObject
  | comma : IsMark ',' .comma
  | colon : IsMark ':' .colon

inductive IsWord : List Char → Token → Prop
  | isTrue : IsWord ['t', 'r', 'u', 'e'] (.bool true)
  | isFalse : IsWord ['f', 'a', 'l', 's', 'e'] (.bool false)
  | isNull : IsWord ['n', 'u', 'l', 'l'] .null

/-- The value of a hexadecimal digit. -/
def hexDigit? (c : Char) : Option UInt8 :=
  if c.toNat < 0x80 then Bytes.hexValue? c.toUInt8 else none

/-- The number that hexadecimal digits go on to give. -/
def hexFrom? (value : Nat) (ds : List Char) : Option Nat :=
  ds.foldlM (fun value c => (hexDigit? c).map fun d => value * 16 + d.toNat) value

/-- The glyphs of a string behind its first quote, and what is left behind the last one. -/
inductive Quoted : List Char → List Glyph → List Char → Prop
  | close {rest : List Char} : Quoted ('"' :: rest) [] rest
  | plain {c : Char} {cs rest : List Char} {glyphs : List Glyph} (quote : c ≠ '"')
      (slash : c ≠ '\\') (visible : 0x20 ≤ c.toNat) (h : Quoted cs glyphs rest) :
      Quoted (c :: cs) (.inl c :: glyphs) rest
  | short {e c : Char} {cs rest : List Char} {glyphs : List Glyph} (meant : shortEscape? e = some c)
      (h : Quoted cs glyphs rest) : Quoted ('\\' :: e :: cs) (.inl c :: glyphs) rest
  | unit {ds cs rest : List Char} {u : Nat} {glyphs : List Glyph} (four : ds.length = 4)
      (value : hexFrom? 0 ds = some u) (h : Quoted cs glyphs rest) :
      Quoted ('\\' :: 'u' :: (ds ++ cs)) (.inr u :: glyphs) rest

/-- The tokens that a text is cut into. -/
inductive Lexes : List Char → List Token → Prop
  | done : Lexes [] []
  | blank {c : Char} {cs : List Char} {ts : List Token} (blank : IsBlank c) (h : Lexes cs ts) :
      Lexes (c :: cs) ts
  | mark {c : Char} {t : Token} {cs : List Char} {ts : List Token} (mark : IsMark c t)
      (h : Lexes cs ts) : Lexes (c :: cs) (t :: ts)
  | word {letters rest : List Char} {t : Token} {ts : List Token} (word : IsWord letters t)
      (ends : ∀ c ∈ rest.head?, c.isLower = false) (h : Lexes rest ts) :
      Lexes (letters ++ rest) (t :: ts)
  | number {signs rest : List Char} {p : Number.Parts} {ts : List Token}
      (number : Number.Written signs p) (ends : ∀ c ∈ rest.head?, isNumberSign c = false)
      (h : Lexes rest ts) : Lexes (signs ++ rest) (.number (Number.ofParts? p) :: ts)
  | text {cs rest : List Char} {glyphs : List Glyph} {ts : List Token}
      (string : Quoted cs glyphs rest) (h : Lexes rest ts) :
      Lexes ('"' :: cs) (.text ((spell? glyphs).map String.ofList) :: ts)

/-! ### The cut goes through what is written -/

/-- The tokens in the end, from where the text is being cut. -/
def cutFrom? (done : List Token) (cut : Cut) (cs : List Char) : Option (List Token) :=
  cutEnd? (cs.foldl cutChar (done, cut))

section Cut

variable {done out : List Token} {cs rest : List Char} {c : Char} {t : Token}

theorem cutFrom?_broken (done : List Token) (cs : List Char) : cutFrom? done .broken cs = none := by
  induction cs with
  | nil => rfl
  | cons c cs ih => exact ih

theorem not_broken (h : cutFrom? done .broken cs = some out) : False := by
  rw [cutFrom?_broken] at h
  cases h

/-- The cut takes a character and goes on behind it. -/
theorem cutFrom?_cons {after : List Token} {cut next : Cut}
    (step : cutChar (done, cut) c = (after, next)) (cs : List Char) :
    cutFrom? done cut (c :: cs) = cutFrom? after next cs := by
  rw [cutFrom?, List.foldl_cons, step, cutFrom?]

theorem cutFrom?_between {after : List Token} {next : Cut}
    (step : cutBetween done c = (after, next)) (cs : List Char) :
    cutFrom? done .between (c :: cs) = cutFrom? after next cs := by
  have cut : cutChar (done, .between) c = (after, next) := step
  exact cutFrom?_cons cut cs

/-- What a character between two tokens leads to. -/
inductive Begins (done : List Token) (c : Char) : Cutting → Prop
  | blank (h : IsBlank c) : Begins done c (done, .between)
  | mark {t : Token} (h : IsMark c t) : Begins done c (t :: done, .between)
  | string (h : c = '"') : Begins done c (done, .string [])
  | number (h : c = '-' ∨ c.isDigit = true) : Begins done c (done, .number [c])
  | word (h : c.isLower = true) : Begins done c (done, .word [c])
  | broken (sign : ¬ (c = '-' ∨ c.isDigit = true)) (letter : ¬ c.isLower = true) :
      Begins done c (done, .broken)

theorem begins (done : List Token) (c : Char) : Begins done c (cutBetween done c) := by
  have brace : ∀ {d : Char}, c.toNat = d.toNat → c = d := Char.toNat_inj.mp
  unfold cutBetween
  split
  · rename_i h
    exact .blank h
  split
  · rename_i h
    exact .mark (h ▸ .openArray)
  split
  · rename_i h
    exact .mark (h ▸ .closeArray)
  split
  · rename_i h
    exact .mark (brace (d := '\x7B') h ▸ .openObject)
  split
  · rename_i h
    exact .mark (brace (d := '\x7D') h ▸ .closeObject)
  split
  · rename_i h
    exact .mark (h ▸ .comma)
  split
  · rename_i h
    exact .mark (h ▸ .colon)
  split
  · rename_i h
    exact .string h
  split
  · rename_i h
    exact .number h
  split
  · rename_i h
    exact .word h
  · rename_i sign letter
    exact .broken sign letter

theorem cutBetween_of_blank (h : IsBlank c) : cutBetween done c = (done, .between) :=
  if_pos h

theorem cutBetween_of_mark (h : IsMark c t) : cutBetween done c = (t :: done, .between) := by
  cases h <;> rfl

theorem not_isDigit_of_isLower (h : c.isLower = true) : c.isDigit = false := by
  have letter : 97 ≤ c.val := of_decide_eq_true (Bool.and_eq_true_iff.mp h).1
  rw [← Bool.not_eq_true]
  intro digit
  have last : c.val ≤ 57 := of_decide_eq_true (Bool.and_eq_true_iff.mp digit).2
  exact absurd (UInt32.le_trans letter last) (by decide)

/-- A letter begins a word; a digit and a minus begin a number. -/
theorem Begins.of_first {next : Cutting} (b : Begins done c next)
    (first : (c = '-' ∨ c.isDigit = true) ∨ c.isLower = true) :
    next = (done, if c.isLower then .word [c] else .number [c]) := by
  cases b with
  | blank blank => rcases blank with rfl | rfl | rfl | rfl <;> exact absurd first (by decide)
  | mark mark => cases mark <;> exact absurd first (by decide)
  | string quote => exact absurd (quote ▸ first) (by decide)
  | number sign =>
      rcases sign with rfl | digit
      · rfl
      · have letter : ¬ c.isLower = true := fun letter => by
          simp [not_isDigit_of_isLower letter] at digit
        rw [if_neg letter]
  | word letter => rw [if_pos letter]
  | broken sign letter => exact absurd first (not_or.mpr ⟨sign, letter⟩)

theorem cutBetween_of_number (h : c = '-' ∨ c.isDigit = true) :
    cutBetween done c = (done, .number [c]) := by
  have letter : ¬ c.isLower = true := by
    intro letter
    rcases h with rfl | digit
    · exact absurd letter (by decide)
    · exact absurd digit (by simp [not_isDigit_of_isLower letter])
  rw [(begins done c).of_first (.inl h), if_neg letter]

theorem cutBetween_of_word (h : c.isLower = true) : cutBetween done c = (done, .word [c]) := by
  rw [(begins done c).of_first (.inr h), if_pos h]

/-! #### Words and numbers -/

/-- A token is gathered character by character, as long as these may be part of it. -/
structure Gathers (held : List Char → Cut) (goesOn : Char → Bool)
    (token? : List Char → Option Token) : Prop where
  next : ∀ done gathered c, cutChar (done, held gathered) c =
    if goesOn c then (done, held (c :: gathered)) else cutAfter done (token? gathered.reverse) c
  last : ∀ done gathered, cutEnd? (done, held gathered) =
    (token? gathered.reverse).map fun t => (t :: done).reverse

theorem gathers_word : Gathers .word Char.isLower wordToken? :=
  ⟨fun _ _ _ => rfl, fun _ _ => rfl⟩

theorem gathers_number : Gathers .number isNumberSign numberToken? :=
  ⟨fun _ _ _ => rfl, fun _ _ => rfl⟩

section Gathers

variable {held : List Char → Cut} {goesOn : Char → Bool} {token? : List Char → Option Token}
  {gathered front : List Char}

/-- What is gathered becomes a token before the first character that is no part of it. -/
theorem Gathers.cutFrom?_append (g : Gathers held goesOn token?)
    (all : ∀ c ∈ front, goesOn c = true) (ends : ∀ c ∈ rest.head?, goesOn c = false)
    (token : token? (gathered.reverse ++ front) = some t) :
    cutFrom? done (held gathered) (front ++ rest) = cutFrom? (t :: done) .between rest := by
  induction front generalizing gathered with
  | nil =>
      rw [List.append_nil] at token
      cases rest with
      | nil =>
          rw [List.nil_append, cutFrom?, List.foldl_nil, g.last, token]
          rfl
      | cons c rest =>
          have stop : ¬ goesOn c = true := by simp [ends c rfl]
          rw [List.nil_append, cutFrom?, List.foldl_cons, g.next, if_neg stop, token]
          rfl
  | cons c front ih =>
      obtain ⟨first, later⟩ := List.forall_mem_cons.mp all
      have token : token? ((c :: gathered).reverse ++ front) = some t := by simpa using token
      have step := (g.next done gathered c).trans (if_pos first)
      rw [List.cons_append, cutFrom?_cons step]
      exact ih later token

/-- Where the cut ends, what is gathered has become a token. -/
theorem Gathers.exists_of_cutFrom? (g : Gathers held goesOn token?)
    (h : cutFrom? done (held gathered) cs = some out) :
    ∃ front rest t, cs = front ++ rest ∧ (∀ c ∈ front, goesOn c = true) ∧
      (∀ c ∈ rest.head?, goesOn c = false) ∧ token? (gathered.reverse ++ front) = some t := by
  induction cs generalizing gathered with
  | nil =>
      rw [cutFrom?, List.foldl_nil, g.last] at h
      obtain ⟨t, token, -⟩ := Option.map_eq_some_iff.mp h
      exact ⟨[], [], t, rfl, nofun, nofun, by rw [List.append_nil, token]⟩
  | cons c cs ih =>
      rw [cutFrom?, List.foldl_cons, g.next] at h
      split at h
      · rename_i goes
        obtain ⟨front, rest, t, rfl, all, ends, token⟩ := ih h
        refine ⟨c :: front, rest, t, rfl, List.forall_mem_cons.mpr ⟨goes, all⟩, ends, ?_⟩
        rw [← token, List.reverse_cons, List.append_assoc]
        rfl
      · rename_i stop
        have ends : ∀ d ∈ (c :: cs).head?, goesOn d = false := by
          rintro d ⟨⟩
          exact Bool.eq_false_iff.mpr stop
        cases token : token? gathered.reverse with
        | none =>
            rw [token] at h
            exact (not_broken h).elim
        | some t => exact ⟨[], c :: cs, t, rfl, nofun, ends, by rw [List.append_nil, token]⟩

end Gathers

/-! #### Strings -/

section Strings

variable {gathered glyphs : List Glyph} {ds : List Char} {owed value u : Nat}

theorem cutChar_code (done : List Token) (gathered : List Glyph) (owed value : Nat) (c : Char) :
    cutChar (done, .code gathered owed value) c =
      match hexDigit? c with
      | none => (done, .broken)
      | some d =>
          if owed ≤ 1 then (done, .string (.inr (value * 16 + d.toNat) :: gathered))
          else (done, .code gathered (owed - 1) (value * 16 + d.toNat)) :=
  rfl

theorem hexFrom?_cons (value : Nat) (c : Char) (ds : List Char) :
    hexFrom? value (c :: ds) = (hexDigit? c).bind fun d => hexFrom? (value * 16 + d.toNat) ds := by
  rw [hexFrom?, List.foldlM_cons]
  cases hexDigit? c <;> rfl

/-- The digits of an escape become a code unit. -/
theorem cutFrom?_code_append (length : ds.length = owed + 1) (known : hexFrom? value ds = some u)
    (cs : List Char) : cutFrom? done (.code gathered (owed + 1) value) (ds ++ cs) =
      cutFrom? done (.string (.inr u :: gathered)) cs := by
  induction ds generalizing owed value with
  | nil => cases length
  | cons c ds ih =>
      rw [hexFrom?_cons, Option.bind_eq_some_iff] at known
      obtain ⟨d, digit, known⟩ := known
      rw [List.cons_append, cutFrom?, List.foldl_cons, cutChar_code, digit]
      cases owed with
      | zero =>
          obtain rfl := List.eq_nil_of_length_eq_zero (Nat.succ.inj length)
          cases known
          rfl
      | succ owed => exact ih (Nat.succ.inj length) known

/-- An escape that is owed digits goes on with one. -/
theorem exists_digit_of_cutFrom?_code
    (h : cutFrom? done (.code gathered owed value) cs = some out) :
    ∃ c d rest, cs = c :: rest ∧ hexDigit? c = some d ∧
      cutFrom? done (if owed ≤ 1 then .string (.inr (value * 16 + d.toNat) :: gathered)
        else .code gathered (owed - 1) (value * 16 + d.toNat)) rest = some out := by
  cases cs with
  | nil => cases h
  | cons c rest =>
      rw [cutFrom?, List.foldl_cons, cutChar_code] at h
      cases digit : hexDigit? c with
      | none =>
          rw [digit] at h
          exact (not_broken h).elim
      | some d =>
          refine ⟨c, d, rest, rfl, digit, ?_⟩
          rw [digit] at h
          by_cases last : owed ≤ 1
          · simpa only [if_pos last, cutFrom?] using h
          · simpa only [if_neg last, cutFrom?] using h

theorem exists_of_cutFrom?_code
    (h : cutFrom? done (.code gathered (owed + 1) value) cs = some out) :
    ∃ ds rest u, cs = ds ++ rest ∧ ds.length = owed + 1 ∧ hexFrom? value ds = some u := by
  induction owed generalizing cs value with
  | zero =>
      obtain ⟨c, d, rest, rfl, digit, -⟩ := exists_digit_of_cutFrom?_code h
      exact ⟨[c], rest, _, rfl, rfl, by rw [hexFrom?_cons, digit]; rfl⟩
  | succ owed ih =>
      obtain ⟨c, d, later, rfl, digit, h⟩ := exists_digit_of_cutFrom?_code h
      obtain ⟨ds, rest, u, rfl, length, known⟩ := ih h
      refine ⟨c :: ds, rest, u, rfl, congrArg Nat.succ length, ?_⟩
      rw [hexFrom?_cons, digit]
      exact known

theorem cutChar_plain (quote : c ≠ '"') (slash : c ≠ '\\') (visible : 0x20 ≤ c.toNat) :
    cutChar (done, .string gathered) c = (done, .string (.inl c :: gathered)) := by
  rw [cutChar, if_neg quote, if_neg slash, if_neg (Nat.not_lt.mpr visible)]

theorem cutChar_short {e : Char} (meant : shortEscape? e = some c) :
    cutChar (done, .escape gathered) e = (done, .string (.inl c :: gathered)) := by
  have other : e ≠ 'u' := by
    rintro rfl
    cases meant
  rw [cutChar, if_neg other, meant]

/-- **A string is cut off behind its last quote**, with what it was written as. -/
theorem cutFrom?_of_quoted (h : Quoted cs glyphs rest) :
    cutFrom? done (.string gathered) cs = cutFrom?
      (.text ((spell? (gathered.reverse ++ glyphs)).map String.ofList) :: done) .between rest := by
  have more : ∀ (g : Glyph) (gathered glyphs : List Glyph),
      gathered.reverse ++ g :: glyphs = (g :: gathered).reverse ++ glyphs := by simp
  induction h generalizing gathered with
  | close =>
      rw [List.append_nil]
      rfl
  | plain quote slash visible _ ih =>
      rw [more, ← ih, cutFrom?_cons (cutChar_plain quote slash visible)]
  | @short e c cs rest glyphs meant _ ih =>
      have slash : cutChar (done, .string gathered) '\\' = (done, .escape gathered) := rfl
      rw [more, ← ih, cutFrom?_cons slash, cutFrom?_cons (cutChar_short meant)]
  | unit four value _ ih =>
      rw [more, ← ih]
      exact cutFrom?_code_append four value _

/-- Where the cut ends, the string that it goes through does. -/
def Closes (cs : List Char) : Prop :=
  ∀ {done out : List Token} {gathered : List Glyph},
    cutFrom? done (.string gathered) cs = some out → ∃ glyphs rest, Quoted cs glyphs rest

/-- Behind a backslash, an escape stands with the string that goes on. -/
theorem quoted_of_escape {n : Nat} (found : ∀ us : List Char, us.length ≤ n → Closes us)
    (le : cs.length ≤ n) (h : cutFrom? done (.escape gathered) cs = some out) :
    ∃ glyphs rest, Quoted ('\\' :: cs) glyphs rest := by
  cases cs with
  | nil => cases h
  | cons e cs =>
      have fewer : cs.length ≤ n := Nat.le_of_succ_le le
      by_cases unit : e = 'u'
      · subst unit
        have code : cutFrom? done (.code gathered (3 + 1) 0) cs = some out := h
        obtain ⟨ds, rest, u, rfl, four, value⟩ := exists_of_cutFrom?_code code
        have next := (cutFrom?_code_append four value rest).symm.trans code
        have less : rest.length ≤ n := Nat.le_trans (by simp) fewer
        obtain ⟨glyphs, behind, quoted⟩ := found rest less next
        exact ⟨_, behind, .unit four value quoted⟩
      · cases meant : shortEscape? e with
        | none =>
            have stop : cutChar (done, .escape gathered) e = (done, .broken) := by
              rw [cutChar, if_neg unit, meant]
            rw [cutFrom?_cons stop] at h
            exact (not_broken h).elim
        | some d =>
            rw [cutFrom?_cons (cutChar_short meant)] at h
            obtain ⟨glyphs, rest, quoted⟩ := found cs fewer h
            exact ⟨_, rest, .short meant quoted⟩

theorem closes (cs : List Char) : Closes cs := by
  -- by the length of what is left, as an escape is more than one character
  generalize length : cs.length = n
  induction n using Nat.strongRecOn generalizing cs with
  | _ n ih =>
      intro done out gathered h
      cases cs with
      | nil => cases h
      | cons c cs =>
          have found : ∀ us : List Char, us.length ≤ cs.length → Closes us := by
            intro us le
            exact ih us.length (length ▸ Nat.lt_succ_of_le le) us rfl
          by_cases quote : c = '"'
          · exact ⟨[], cs, quote ▸ .close⟩
          by_cases slash : c = '\\'
          · subst slash
            exact quoted_of_escape found (Nat.le_refl _) h
          by_cases visible : 0x20 ≤ c.toNat
          · rw [cutFrom?_cons (cutChar_plain quote slash visible)] at h
            obtain ⟨glyphs, rest, quoted⟩ := found cs (Nat.le_refl _) h
            exact ⟨_, rest, .plain quote slash visible quoted⟩
          · have stop : cutChar (done, .string gathered) c = (done, .broken) := by
              rw [cutChar, if_neg quote, if_neg slash, if_pos (Nat.lt_of_not_le visible)]
            rw [cutFrom?_cons stop] at h
            exact (not_broken h).elim

end Strings

/-! #### Texts -/

theorem Number.IsDigits.signs (h : Number.IsDigits cs) : ∀ c ∈ cs, isNumberSign c = true := by
  intro c hc
  simp [isNumberSign, h.2 c hc]

theorem Number.Fraction.signs {f : Option (List Char)} (h : Number.Fraction cs f) :
    ∀ c ∈ cs, isNumberSign c = true := by
  cases h with
  | absent => nofun
  | digits digits => exact List.forall_mem_cons.mpr ⟨by decide, digits.signs⟩

theorem Number.Exponent.signs {e : Option (Bool × List Char)} (h : Number.Exponent cs e) :
    ∀ c ∈ cs, isNumberSign c = true := by
  have marks : ∀ c : Char, c = 'e' ∨ c = 'E' → isNumberSign c = true := by
    rintro c (rfl | rfl) <;> decide
  cases h with
  | absent => nofun
  | bare mark digits => exact List.forall_mem_cons.mpr ⟨marks _ mark, digits.signs⟩
  | plus mark digits =>
      have plus : isNumberSign '+' = true := by decide
      exact List.forall_mem_cons.mpr ⟨marks _ mark, List.forall_mem_cons.mpr ⟨plus, digits.signs⟩⟩
  | minus mark digits =>
      have minus : isNumberSign '-' = true := by decide
      exact List.forall_mem_cons.mpr ⟨marks _ mark, List.forall_mem_cons.mpr ⟨minus, digits.signs⟩⟩

/-- A number is written in the characters that one may hold, with a digit or a minus first. -/
theorem Number.Written.signs {signs : List Char} {p : Number.Parts} (h : Number.Written signs p) :
    (∀ c ∈ signs, isNumberSign c = true) ∧
      ∃ c front, signs = c :: front ∧ (c = '-' ∨ c.isDigit = true) := by
  obtain ⟨_, ⟨⟨digits, -⟩, fraction, exponent, isFraction, isExponent, rfl⟩, rfl⟩ := h
  have all : ∀ c ∈ p.whole ++ (fraction ++ exponent), isNumberSign c = true :=
    List.forall_mem_append.mpr
      ⟨digits.signs, List.forall_mem_append.mpr ⟨isFraction.signs, isExponent.signs⟩⟩
  split
  · exact ⟨List.forall_mem_cons.mpr ⟨by decide, all⟩, '-', _, rfl, .inl rfl⟩
  · obtain ⟨d, ds, whole⟩ := List.exists_cons_of_ne_nil digits.1
    have digit := digits.2 d (whole ▸ List.mem_cons_self)
    exact ⟨all, d, ds ++ (fraction ++ exponent), by rw [whole]; rfl, .inr digit⟩

theorem numberToken?_of_written {signs : List Char} {p : Number.Parts}
    (h : Number.Written signs p) : numberToken? signs = some (.number (Number.ofParts? p)) := by
  rw [numberToken?, Number.parts?_eq_some_iff.mpr h, Option.map_some]

/-- A word is written in letters. -/
theorem IsWord.letters {letters : List Char} (h : IsWord letters t) :
    (∀ c ∈ letters, c.isLower = true) ∧ letters ≠ [] ∧ wordToken? letters = some t := by
  cases h <;> exact ⟨List.all_eq_true.mp rfl, List.cons_ne_nil _ _, rfl⟩

theorem isWord_of_wordToken? {letters : List Char} (h : wordToken? letters = some t) :
    IsWord letters t := by
  unfold wordToken? at h
  split at h
  · rename_i same
    cases h
    exact same ▸ .isTrue
  split at h
  · rename_i same
    cases h
    exact same ▸ .isFalse
  split at h
  · rename_i same
    cases h
    exact same ▸ .isNull
  · cases h

/-- **A text is cut into the tokens that it is written in.** -/
theorem cutFrom?_of_lexes {ts : List Token} (h : Lexes cs ts) (done : List Token) :
    cutFrom? done .between cs = some (done.reverse ++ ts) := by
  have more : ∀ (done : List Token) (t : Token) (ts : List Token),
      done.reverse ++ t :: ts = (t :: done).reverse ++ ts := by simp
  induction h generalizing done with
  | done => simp [cutFrom?, cutEnd?]
  | @blank c cs ts blank _ ih =>
      rw [cutFrom?_between (cutBetween_of_blank blank)]
      exact ih done
  | @mark c t cs ts mark _ ih =>
      rw [cutFrom?_between (cutBetween_of_mark mark), more]
      exact ih (t :: done)
  | @word letters rest t ts word ends _ ih =>
      obtain ⟨lower, filled, token⟩ := word.letters
      obtain ⟨c, front, rfl⟩ := List.exists_cons_of_ne_nil filled
      obtain ⟨first, later⟩ := List.forall_mem_cons.mp lower
      rw [List.cons_append, cutFrom?_between (cutBetween_of_word first), more, ← ih]
      exact gathers_word.cutFrom?_append later ends token
  | @number signs rest p ts number ends _ ih =>
      obtain ⟨all, c, front, rfl, first⟩ := number.signs
      rw [List.cons_append, cutFrom?_between (cutBetween_of_number first), more, ← ih]
      exact gathers_number.cutFrom?_append (List.forall_mem_cons.mp all).2 ends
        (numberToken?_of_written number)
  | text string _ ih =>
      rw [more, ← ih]
      exact cutFrom?_of_quoted string

theorem Quoted.length_lt {glyphs : List Glyph} (h : Quoted cs glyphs rest) :
    rest.length < cs.length := by
  induction h with
  | close => exact Nat.lt_succ_self _
  | plain _ _ _ _ ih => exact Nat.lt_succ_of_lt ih
  | short _ _ ih => exact Nat.lt_succ_of_lt (Nat.lt_succ_of_lt ih)
  | unit _ _ _ ih =>
      simp only [List.length_cons, List.length_append]
      omega

/-- A text that can be cut is written in some tokens. -/
theorem exists_lexes (h : cutFrom? done .between cs = some out) : ∃ ts, Lexes cs ts := by
  -- by the length of what is left, as a token is more than one character
  generalize length : cs.length = n
  induction n using Nat.strongRecOn generalizing cs done with
  | _ n ih =>
      cases cs with
      | nil => exact ⟨[], .done⟩
      | cons c cs =>
          have shorter : ∀ {us : List Char} {before : List Token}, us.length ≤ cs.length →
              cutFrom? before .between us = some out → ∃ ts, Lexes us ts := by
            intro us before le next
            exact ih us.length (length ▸ Nat.lt_succ_of_le le) next rfl
          have next : cutEnd? (cs.foldl cutChar (cutBetween done c)) = some out := h
          have b := begins done c
          generalize cutBetween done c = cut at b next
          cases b with
          | blank blank =>
              obtain ⟨ts, lexes⟩ := shorter (Nat.le_refl _) next
              exact ⟨ts, .blank blank lexes⟩
          | mark mark =>
              obtain ⟨ts, lexes⟩ := shorter (Nat.le_refl _) next
              exact ⟨_, .mark mark lexes⟩
          | string quote =>
              subst quote
              obtain ⟨glyphs, rest, quoted⟩ := closes cs next
              have le := Nat.le_of_lt quoted.length_lt
              obtain ⟨ts, lexes⟩ := shorter le ((cutFrom?_of_quoted quoted).symm.trans next)
              exact ⟨_, .text quoted lexes⟩
          | number first =>
              obtain ⟨front, rest, t, rfl, all, ends, token⟩ :=
                gathers_number.exists_of_cutFrom? next
              have behind := (gathers_number.cutFrom?_append all ends token).symm.trans next
              have le : rest.length ≤ (front ++ rest).length := by simp
              obtain ⟨ts, lexes⟩ := shorter le behind
              obtain ⟨p, parts, rfl⟩ := Option.map_eq_some_iff.mp token
              exact ⟨_, .number (Number.parts?_eq_some_iff.mp parts) ends lexes⟩
          | word first =>
              obtain ⟨front, rest, t, rfl, all, ends, token⟩ := gathers_word.exists_of_cutFrom? next
              have behind := (gathers_word.cutFrom?_append all ends token).symm.trans next
              have le : rest.length ≤ (front ++ rest).length := by simp
              obtain ⟨ts, lexes⟩ := shorter le behind
              exact ⟨_, .word (isWord_of_wordToken? token) ends lexes⟩
          | broken => exact (not_broken next).elim

end Cut

/-- **The tokens of a text are those that it is written in.** -/
theorem tokens?_eq_some_iff {cs : List Char} {ts : List Token} :
    tokens? cs = some ts ↔ Lexes cs ts := by
  have cut : tokens? cs = cutFrom? [] .between cs := rfl
  rw [cut]
  constructor
  · intro h
    obtain ⟨us, lexes⟩ := exists_lexes h
    rw [cutFrom?_of_lexes lexes, Option.some.injEq, List.reverse_nil, List.nil_append] at h
    exact h ▸ lexes
  · intro lexes
    exact cutFrom?_of_lexes lexes []

/-- The whole numbers among the tokens of a text fit 64 bits. -/
theorem Lexes.int_bounds {cs : List Char} {ts : List Token} {i : Int} (h : Lexes cs ts)
    (mem : .number (some (.int i)) ∈ ts) :
    -(Text.Decimal.max63 + 1 : Int) ≤ i ∧ i ≤ Text.Decimal.max64 := by
  induction h with
  | done => cases mem
  | blank _ _ ih => exact ih mem
  | mark mark _ ih =>
      rcases List.mem_cons.mp mem with rfl | mem
      · cases mark
      · exact ih mem
  | word word _ _ ih =>
      rcases List.mem_cons.mp mem with rfl | mem
      · cases word
      · exact ih mem
  | number number _ _ ih =>
      rcases List.mem_cons.mp mem with same | mem
      · have whole := (Number.ofParts?_eq_int_iff number.digits).mp (Token.number.inj same).symm
        exact whole.2.2.bounds
      · exact ih mem
  | text _ _ ih =>
      rcases List.mem_cons.mp mem with same | mem
      · cases same
      · exact ih mem

end Gatehouse.Json
