import Gatehouse.App.Login
import Gatehouse.Proofs.Text.Pieces
import Gatehouse.Url.Resolve

/-!
Where local paths lead.

A reader drops what surrounds an address, and tabs and line breaks anywhere. A text that begins
with a slash and has no control character loses at most what is at its end, so the reader
sees whether a second slash follows the first one, just as the check of local paths does. Nothing
but a second slash begins an authority.

* `isLocalPath_iff`: local paths by their characters.
* `resolve_of_oneSlash`, `resolve_of_twoSlashes`: what a text that begins with a slash leads to.
* `local_path_keeps_origin`: local paths lead to the host that they are followed from.
* `isLocalPath_iff_keepsOrigin`: among the texts that begin with a slash and have no control
  character, no others do.
-/

namespace Gatehouse

open Text
open Url (isSlash)

theorem Url.isSlash_iff {c : Char} : isSlash c = true ↔ c = '/' ∨ c = '\\' := by
  simp [isSlash, Url.endsAuthority]

/-- A local path begins with one slash and has no control character. -/
theorem App.isLocalPath_iff {t : String} :
    isLocalPath t = true ↔
      ∃ rest, t.toList = '/' :: rest ∧ rest.head?.any isSlash = false ∧
        ∀ c ∈ rest, isControl c = false := by
  have second : ∀ rest : List Char, rest.head?.any isSlash = false ↔
      rest.head? ≠ some '/' ∧ rest.head? ≠ some '\\' := by
    intro rest
    cases rest with
    | nil => simp
    | cons c rest => simp [isSlash, Url.endsAuthority]
  unfold isLocalPath
  split
  · rename_i rest text
    simp [text, second, and_assoc]
  · rename_i other
    constructor
    · intro h
      cases h
    · rintro ⟨rest, text, -⟩
      exact absurd text (other rest)

namespace Url

variable {t : String} {rest : List Char} {base : Url}

/-- Of a text that begins with a slash and has no control character, only padding at the end is
dropped. -/
theorem trimmed_of_slash (text : t.toList = '/' :: rest) (plain : ∀ c ∈ rest, isControl c = false) :
    ∃ kept padding, trimmed t = '/' :: kept ∧ rest = kept ++ padding ∧
      ∀ c ∈ padding, isPadding c = true := by
  have visible : ∀ c ∈ '/' :: rest, isControl c = false :=
    List.forall_mem_cons.mpr ⟨by decide, plain⟩
  have whole : ('/' :: rest).rdropWhile isPadding ++ ('/' :: rest).rtakeWhile isPadding =
      '/' :: rest := List.rdropWhile_append_rtakeWhile
  have read : trimmed t = ('/' :: rest).rdropWhile isPadding := by
    have front : ('/' :: rest).dropWhile isPadding = '/' :: rest :=
      List.dropWhile_cons_of_neg (by decide)
    rw [trimmed, text, front]
    refine List.filter_eq_self.mpr fun c mem => ?_
    have shown := visible c ((List.rdropWhile_prefix isPadding _).subset mem)
    have broken : isControl '\t' = true ∧ isControl '\n' = true ∧ isControl '\r' = true := by decide
    have ne : ∀ d, isControl d = true → c ≠ d := by
      rintro d control rfl
      cases shown.symm.trans control
    simp [ne _ broken.1, ne _ broken.2.1, ne _ broken.2.2]
  rw [← read] at whole
  cases left : trimmed t with
  | nil =>
      have slash : '/' ∈ ('/' :: rest).rtakeWhile isPadding := by
        rw [left, List.nil_append] at whole
        rw [whole]
        exact List.mem_cons_self
      cases List.mem_rtakeWhile_imp slash
  | cons c kept =>
      rw [left] at whole
      obtain ⟨rfl, later⟩ := List.cons.inj whole
      exact ⟨kept, _, rfl, later.symm, fun c mem => List.mem_rtakeWhile_imp mem⟩

/-- Cutting at a mark does not change whether a text begins with a slash. -/
theorem head?_cutOff {sep : Char} (mark : isSlash sep = false) (cs : List Char) :
    (cutOff sep cs).1.head?.any isSlash = cs.head?.any isSlash := by
  unfold cutOff
  cases cs with
  | nil => rfl
  | cons c rest =>
      by_cases here : c = sep
      · simp [cutChars, here, mark]
      · rw [cutChars, if_neg here]
        cases cutChars sep rest <;> rfl

theorem cutOff_cons_of_ne {sep c : Char} (ne : c ≠ sep) (cs : List Char) :
    (cutOff sep (c :: cs)).1 = c :: (cutOff sep cs).1 := by
  rw [cutOff, cutOff, cutChars, if_neg ne]
  cases cutChars sep cs <;> rfl

/-- Before the query of a text that begins with a slash stands a text that begins with a slash,
and with two of them where it does. -/
theorem middle_of_slash (cs : List Char) :
    ∃ rest, (cutOff '?' (cutOff '#' ('/' :: cs)).1).1 = '/' :: rest ∧
      rest.head?.any isSlash = cs.head?.any isSlash := by
  refine ⟨(cutOff '?' (cutOff '#' cs).1).1, ?_, ?_⟩
  · rw [cutOff_cons_of_ne (by decide), cutOff_cons_of_ne (by decide)]
  · rw [head?_cutOff (by decide), head?_cutOff (by decide)]

/-- A reader sees whether a second slash follows the first one. -/
theorem resolve_of_slash (text : t.toList = '/' :: rest) (plain : ∀ c ∈ rest, isControl c = false) :
    ∃ kept, (∀ base : Url, base.isWeb = true → base.resolve t = readFrom base ('/' :: kept)) ∧
      kept.head?.any isSlash = rest.head?.any isSlash := by
  obtain ⟨kept, padding, read, rfl, dropped⟩ := trimmed_of_slash text plain
  have noScheme : scheme? ('/' :: kept) = none := by
    rw [scheme?]
    rfl
  refine ⟨kept, fun base web => by rw [resolve, if_pos web, read, noScheme], ?_⟩
  cases kept with
  | cons c kept => rfl
  | nil =>
      cases padding with
      | nil => rfl
      | cons c padding =>
          have other : isSlash c = false := by
            have blank := dropped c List.mem_cons_self
            refine Bool.eq_false_iff.mpr fun slash => ?_
            rcases isSlash_iff.mp slash with rfl | rfl <;> cases blank
          exact other.symm

/-- **One slash begins a path from the root**: nothing else of the page is changed. -/
theorem resolve_of_oneSlash (web : base.isWeb = true) (text : t.toList = '/' :: rest)
    (plain : ∀ c ∈ rest, isControl c = false) (one : rest.head?.any isSlash = false) :
    ∃ path query fragment, base.resolve t = .ok { base with path, query, fragment } := by
  obtain ⟨kept, read, same⟩ := resolve_of_slash text plain
  obtain ⟨front, middle, first⟩ := middle_of_slash kept
  rw [same, one] at first
  rw [read base web, readFrom]
  simp only [middle, middleFrom]
  rw [if_pos (isSlash_iff.mpr (.inl rfl)), if_neg (by simpa using first)]
  exact ⟨_, _, _, rfl⟩

/-- **Two slashes begin an authority**: nothing of the page but its scheme counts. -/
theorem resolve_of_twoSlashes {base' : Url} (web : base.isWeb = true)
    (scheme : base'.scheme = base.scheme) (text : t.toList = '/' :: rest)
    (plain : ∀ c ∈ rest, isControl c = false) (two : rest.head?.any isSlash = true) :
    base'.resolve t = base.resolve t := by
  have web' : base'.isWeb = true := by rwa [isWeb, scheme]
  obtain ⟨kept, read, same⟩ := resolve_of_slash text plain
  obtain ⟨front, middle, first⟩ := middle_of_slash kept
  have own : ∀ (page : Url) more,
      middleFrom page more ('/' :: front) = readMiddle page.scheme more ('/' :: front) := by
    intro page more
    rw [middleFrom]
    simp only [first, same, two, if_pos (isSlash_iff.mpr (.inl rfl)), if_true]
  rw [read base web, read base' web', readFrom, readFrom]
  simp only [middle, own, scheme]

end Url

/-! ### Local paths -/

namespace App

/-- **A local path leads to where it is followed from**: from any page on the web, what a browser
reads of it is an address of the same scheme, host and port. -/
theorem local_path_keeps_origin {t : String} (isLocal : isLocalPath t = true) {base : Url}
    (web : base.scheme = "http" ∨ base.scheme = "https") :
    ∃ u, base.resolve t = .ok u ∧
      u.scheme = base.scheme ∧ u.host = base.host ∧ u.port = base.port := by
  obtain ⟨rest, text, one, plain⟩ := isLocalPath_iff.mp isLocal
  have page : base.isWeb = true := by
    rw [Url.isWeb]
    rcases web with scheme | scheme <;> rw [scheme] <;> decide
  obtain ⟨path, query, fragment, read⟩ := Url.resolve_of_oneSlash page text plain one
  exact ⟨_, read, rfl, rfl, rfl⟩

/-- A page with a port, a query and a fragment of its own. -/
def askingPage : Url where
  scheme := "https"
  host := some (.name "app.flowra.test")
  port := some 8443
  path := .segments ["login"]
  query := some "next=1"
  fragment := some "top"

theorem dotted_path_keeps_origin :
    isLocalPath "/a\\..//evil.example/?x=//#y " = true ∧ askingPage.scheme = "https" ∧
      ∃ u, askingPage.resolve "/a\\..//evil.example/?x=//#y " = .ok u ∧
        u.scheme = "https" ∧ u.host = some (.name "app.flowra.test") ∧ u.port = some 8443 := by
  have isLocal : isLocalPath "/a\\..//evil.example/?x=//#y " = true := by decide
  exact ⟨isLocal, rfl, local_path_keeps_origin isLocal (.inr rfl)⟩

/-- Each spelling of a second slash leads away, also one with a tab between the two. -/
example : ["//evil.example", "/\\evil.example", "/\t/evil.example"].map (fun t =>
    (askingPage.resolve t).toOption.bind Url.host) =
      List.replicate 3 (some (.name "evil.example")) := by
  decide +kernel

/-- **Of the texts that begin with a slash and have no control character, only local paths lead to
where they are followed from.** -/
theorem isLocalPath_iff_keepsOrigin {t : String} {rest : List Char} (text : t.toList = '/' :: rest)
    (plain : ∀ c ∈ rest, Text.isControl c = false) :
    isLocalPath t = true ↔
      ∀ base : Url, base.isWeb = true → ∃ u, base.resolve t = .ok u ∧ u.host = base.host := by
  constructor
  · intro isLocal base web
    obtain ⟨own, text, one, plain⟩ := isLocalPath_iff.mp isLocal
    obtain ⟨path, query, fragment, read⟩ := Url.resolve_of_oneSlash web text plain one
    exact ⟨_, read, rfl⟩
  · intro stays
    refine isLocalPath_iff.mpr ⟨rest, text, Bool.eq_false_iff.mpr fun two => ?_, plain⟩
    -- Two pages with one scheme and two hosts would lead to the same host.
    let page (name : String) : Url :=
      { scheme := "http", host := some (.name name), path := .segments [] }
    have scheme : ["http", "https"].contains "http" = true := by decide
    have web : ∀ name, (page name).isWeb = true := fun _ => scheme
    obtain ⟨u, read, here⟩ := stays (page "a") (web "a")
    obtain ⟨v, read', there⟩ := stays (page "b") (web "b")
    have same : (page "b").resolve t = (page "a").resolve t :=
      Url.resolve_of_twoSlashes (web "a") rfl text plain two
    obtain rfl : u = v := Except.ok.inj (read.symm.trans (same.symm.trans read'))
    exact absurd (here.symm.trans there) (by decide)

end App

end Gatehouse
