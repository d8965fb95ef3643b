import Gatehouse.Page
import Gatehouse.Proofs.Text.Pieces

/-!
Pages as a browser reads them.

A browser finds a tag behind every `<` of a page, up to the next `>`: a name, and
attributes with their values in quotes, in which character references stand for
characters. What a page is filled with is written so that none of these marks is in
it, so it can neither end a value nor begin a tag.

* `Html.unescape_escape`: a text that is escaped is read back.
* `Html.element?_written`: a tag is read as it was written, whatever its attributes
  are.
* `Page.leads_callback`: the page of a finished login leads where it was made to lead,
  by its refresh and by its script, and it has no other refresh and no other script.
* `Page.links_login`: the page that a login begins on has one link.
-/

namespace Gatehouse

namespace Text

namespace Html

/-! ### Reading -/

/-- The character references that are written, by what stands between `&` and `;`. -/
def references : List (List Char × Char) :=
  [("amp".toList, '&'), ("lt".toList, '<'), ("gt".toList, '>'), ("quot".toList, '"'),
    ("#x27".toList, '\''), ("#x2F".toList, '/')]

/-- The characters that are written as references. -/
def marks : List Char :=
  references.map Prod.snd

/-- Read a text with character references, after a `&` and `held` if there is one
open. What is no reference stands for itself. -/
def unescapeFrom : Option (List Char) → List Char → List Char
  | none, [] => []
  | some held, [] => '&' :: held
  | none, c :: rest =>
      if c = '&' then unescapeFrom (some []) rest else c :: unescapeFrom none rest
  | some held, c :: rest =>
      if c = ';' then
        match references.lookup held with
        | some meant => meant :: unescapeFrom none rest
        | none => '&' :: held ++ ';' :: unescapeFrom none rest
      else if c = '&' then '&' :: held ++ unescapeFrom (some []) rest
      else unescapeFrom (some (held ++ [c])) rest

/-- A text with its character references read. -/
def unescape (cs : List Char) : String :=
  String.ofList (unescapeFrom none cs)

/-- A tag with what stands behind it. -/
structure Element where
  name : String
  attributes : List (String × String)
  text : String
  deriving DecidableEq, Repr

def Element.attribute? (e : Element) (name : String) : Option String :=
  e.attributes.lookup name

/-- Read attributes from what stands outside and inside of quotes, by turns. -/
def attributesOf : List (List Char) → List (String × String)
  | label :: value :: rest =>
      (String.ofList (trimChars (label.takeWhile (· ≠ '='))), unescape value) :: attributesOf rest
  | _ => []

/-- Read the piece behind a `<`. -/
def element? (piece : List Char) : Option Element :=
  (cutChars '>' piece).map fun parts =>
    ⟨String.ofList (parts.1.takeWhile (· ≠ ' ')),
      attributesOf (pieces '"' (parts.1.dropWhile (· ≠ ' '))), String.ofList parts.2⟩

/-- The tags of a page in order. -/
def elements (page : String) : List Element :=
  (pieces '<' page.toList).tail.filterMap element?

/-! ### Writing -/

/-- An attribute as it is written. -/
def attributeText (a : String × String) : List Char :=
  ' ' :: a.1.toList ++ '=' :: '"' :: (escape a.2).toList ++ ['"']

/-- A tag as it is written, without its `<`. -/
def written (e : Element) : List Char :=
  e.name.toList ++ e.attributes.flatMap attributeText ++ '>' :: e.text.toList

/-- The name of a tag or of an attribute. -/
def IsLabel (name : String) : Prop :=
  ∀ c ∈ name.toList, isBlank c = false ∧ c ∉ ['>', '"', '=']

instance (name : String) : Decidable (IsLabel name) :=
  List.decidableBAll _ _

/-! ### What is written is read -/

section Written

variable {name value : String} {c : Char} {e : Element} {attributes : List (String × String)}

theorem escapeChar_of_not_mem (plain : c ∉ marks) : escapeChar c = [c] := by
  unfold escapeChar
  split
  case h_7 => rfl
  all_goals exact absurd (by decide) plain

theorem unescapeFrom_escapeChar (c : Char) (rest : List Char) :
    unescapeFrom none (escapeChar c ++ rest) = c :: unescapeFrom none rest := by
  by_cases mark : c ∈ marks
  · simp only [marks, references, List.map_cons, List.map_nil, List.mem_cons, List.not_mem_nil,
      or_false] at mark
    rcases mark with rfl | rfl | rfl | rfl | rfl | rfl <;> rfl
  · have ne : c ≠ '&' := by
      rintro rfl
      exact mark (by decide)
    rw [escapeChar_of_not_mem mark, List.singleton_append, unescapeFrom, if_neg ne]

/-- An escaped text is read whatever is behind it. -/
theorem unescapeFrom_escape_append (s : String) (rest : List Char) :
    unescapeFrom none ((escape s).toList ++ rest) = s.toList ++ unescapeFrom none rest := by
  rw [escape, String.toList_ofList]
  induction s.toList with
  | nil => rfl
  | cons c cs ih =>
      rw [List.flatMap_cons, List.append_assoc, unescapeFrom_escapeChar, ih, List.cons_append]

/-- **An escaped text is read back.** -/
theorem unescape_escape (s : String) : unescape (escape s).toList = s := by
  have read := unescapeFrom_escape_append s []
  rw [List.append_nil] at read
  rw [unescape, read, unescapeFrom, List.append_nil, String.ofList_toList]

theorem escape_append (s t : String) : escape (s ++ t) = escape s ++ escape t := by
  simp [escape, String.toList_append]

/-- The marks that end a text, a tag or a value, or begin one. -/
def boundaries : List Char :=
  ['<', '>', '"', '\'']

/-- No mark that could end a value or a tag is left in an escaped text. -/
theorem not_mem_escape (mark : c ∈ boundaries) (s : String) : c ∉ (escape s).toList := by
  have single : ∀ d, c ∉ escapeChar d := by
    intro d
    by_cases special : d ∈ marks
    · have checked : marks.all (fun d => boundaries.all (· ∉ escapeChar d)) = true := by decide
      have written := List.all_eq_true.mp (List.all_eq_true.mp checked d special) c mark
      exact of_decide_eq_true written
    · rw [escapeChar_of_not_mem special, List.mem_singleton]
      rintro rfl
      have sub : boundaries ⊆ marks := by simp [boundaries, marks, references]
      exact special (sub mark)
  intro h
  rw [escape, String.toList_ofList, List.mem_flatMap] at h
  obtain ⟨d, -, hd⟩ := h
  exact single d hd

theorem IsLabel.not_mem (h : IsLabel name) (mark : c ∈ ['>', '"', '=']) : c ∉ name.toList :=
  fun hc => (h c hc).2 mark

theorem IsLabel.ne_space (h : IsLabel name) (hc : c ∈ name.toList) : c ≠ ' ' := by
  rintro rfl
  exact absurd (h ' ' hc).1 (by decide)

theorem attributeText_eq (a : String × String) (rest : List Char) :
    attributeText a ++ rest =
      (' ' :: a.1.toList ++ ['=']) ++ '"' :: ((escape a.2).toList ++ '"' :: rest) := by
  simp [attributeText]

/-- Attributes are read as they are written. -/
theorem attributesOf_flatMap (labels : ∀ a ∈ attributes, IsLabel a.1) :
    attributesOf (pieces '"' (attributes.flatMap attributeText)) = attributes := by
  induction attributes with
  | nil => rfl
  | cons a rest ih =>
      obtain ⟨name, value⟩ := a
      have label : IsLabel name := labels _ List.mem_cons_self
      have outside : '"' ∉ ' ' :: name.toList ++ ['='] := by
        simp [label.not_mem (c := '"') (by simp)]
      have inside := pieces_of_not_mem (not_mem_escape (c := '"') (by simp [boundaries]) value)
      have read : String.ofList (trimChars ((' ' :: name.toList ++ ['=']).takeWhile (· ≠ '='))) =
          name := by
        have before : (' ' :: name.toList ++ ['=']).takeWhile (· ≠ '=') = ' ' :: name.toList := by
          rw [List.takeWhile_append_of_pos]
          · simp
          · intro c hc
            rcases List.mem_cons.mp hc with rfl | hc
            · decide
            · have ne : c ≠ '=' := fun same => label.not_mem (by simp) (same ▸ hc)
              simpa using ne
        have blank : trimChars (' ' :: name.toList) = trimChars name.toList := rfl
        rw [before, blank, trimChars, dropEnds_eq_self fun c hc => (label c hc).1,
          String.ofList_toList]
      rw [List.flatMap_cons, attributeText_eq, pieces_append_sep, pieces_append_sep,
        pieces_of_not_mem outside, inside, List.singleton_append, List.singleton_append,
        attributesOf, read, unescape_escape, ih fun b hb => labels b (List.mem_cons_of_mem _ hb)]

/-- **A tag is read as it is written.** -/
theorem element?_written (named : IsLabel e.name) (labels : ∀ a ∈ e.attributes, IsLabel a.1) :
    element? (written e) = some e := by
  have whole : '>' ∉ e.name.toList ++ e.attributes.flatMap attributeText := by
    intro h
    rcases List.mem_append.mp h with h | h
    · exact named.not_mem (by simp) h
    · obtain ⟨a, ha, h⟩ := List.mem_flatMap.mp h
      have label := (labels a ha).not_mem (c := '>') (by simp)
      have value := not_mem_escape (c := '>') (by simp [boundaries]) a.2
      simp [attributeText, label, value] at h
  have letters : ∀ c ∈ e.name.toList, decide (c ≠ ' ') = true := fun c hc => by
    simpa using named.ne_space hc
  have ends : (e.attributes.flatMap attributeText).takeWhile (· ≠ ' ') = [] ∧
      (e.attributes.flatMap attributeText).dropWhile (· ≠ ' ') =
        e.attributes.flatMap attributeText := by
    cases e.attributes with
    | nil => exact ⟨rfl, rfl⟩
    | cons a rest => exact ⟨rfl, rfl⟩
  rw [element?, written, cutChars_append whole, Option.map_some,
    List.takeWhile_append_of_pos letters, List.dropWhile_append_of_pos letters, ends.1, ends.2,
    attributesOf_flatMap labels, List.append_nil, String.ofList_toList, String.ofList_toList]

end Written

end Html

end Text

/-! ### The page of a finished login -/

namespace Page

open Text Html

/-- The wait and the address of a refresh. -/
def refresh? (e : Element) : Option String :=
  if e.attribute? "http-equiv" = some "refresh" then e.attribute? "content" else none

/-- The address of the link with the id `next`. -/
def next? (e : Element) : Option String :=
  if e.attribute? "id" = some "next" then e.attribute? "href" else none

def script? (e : Element) : Option String :=
  if e.name = "script" then some e.text else none

/-- The script that goes where the link with the id `next` leads. -/
def follow : String :=
  r#"window.location.replace(document.getElementById("next").getAttribute("href"));"#

/-- The page leads to one address: by a refresh without a wait, and by a script. -/
structure Leads (page target : String) : Prop where
  refresh : (elements page).filterMap refresh? = ["0; url=" ++ target]
  link : (elements page).filterMap next? = [target]
  script : (elements page).filterMap script? = [follow]

theorem Leads.unique {page target other : String} (h : Leads page target) (h' : Leads page other) :
    target = other :=
  (List.cons.inj (h.link.symm.trans h'.link)).1

def refreshTo (target : String) : Element :=
  ⟨"meta", [("http-equiv", "refresh"), ("content", "0; url=" ++ target)], "\n  "⟩

def linkTo (target : String) : Element :=
  ⟨"a", [("id", "next"), ("href", target)], "Continue"⟩

/-- The markup of a template in order, without its slots. -/
def markup (t : Template) : List String :=
  t.filterMap fun
    | .markup text => some text
    | .slot _ => none

/-- The pieces of the markup between two slots of a template. -/
def markupPieces (t : Template) (i : Nat) : List (List Char) :=
  pieces '<' ((markup t).getD i "").toList

-- A check that runs over `String.toList` decodes the markup again and again, so the markup is
-- spelt before one is made.
theorem markupPieces_eq {t : Template} {i : Nat} {cs : List Char}
    (spelt : (markup t).getD i "" = String.ofList cs) : markupPieces t i = pieces '<' cs := by
  rw [markupPieces, spelt, String.toList_ofList]

/-- What fills a slot stays in one piece. -/
theorem pieces_escape (s : String) : pieces '<' (escape s).toList = [] ++ [(escape s).toList] :=
  pieces_of_not_mem (not_mem_escape (by simp [boundaries]) s)

/-- The tags of the template before the refresh. -/
def front : List Element :=
  (markupPieces Template.callback 0).dropLast.tail.filterMap element?

/-- Those between the refresh and the link. -/
def middle : List Element :=
  (markupPieces Template.callback 1).tail.dropLast.filterMap element?

/-- Those behind the link. -/
def back : List Element :=
  (markupPieces Template.callback 2).tail.filterMap element?

variable (target : String)

theorem written_refreshTo : written (refreshTo target) =
    "meta http-equiv=\"refresh\" content=\"0; url=".toList ++
      ((escape target).toList ++ "\">\n  ".toList) := by
  have plain : escape "refresh" = "refresh" ∧ escape "0; url=" = "0; url=" := by decide
  simp [written, refreshTo, attributeText, escape_append, plain, String.toList_append]

theorem written_linkTo : written (linkTo target) =
    "a id=\"next\" href=\"".toList ++ ((escape target).toList ++ "\">Continue".toList) := by
  have plain : escape "next" = "next" := by decide
  simp [written, linkTo, attributeText, plain]

theorem toList_callback : (Template.callback.render fun _ => target).toList =
    ((markup Template.callback).getD 0 "").toList ++ ((escape target).toList ++
      (((markup Template.callback).getD 1 "").toList ++ ((escape target).toList ++
        ((markup Template.callback).getD 2 "").toList))) := by
  have joined : ∀ a b c d e : String, (String.join [a, b, c, d, e]).toList =
      a.toList ++ (b.toList ++ (c.toList ++ (d.toList ++ e.toList))) := by
    simp
  exact joined ((markup Template.callback).getD 0 "") (escape target)
    ((markup Template.callback).getD 1 "") (escape target) ((markup Template.callback).getD 2 "")

/-- The target stands in two pieces of the page, each within the value of a tag. -/
theorem pieces_callback : pieces '<' (Template.callback.render fun _ => target).toList =
    (markupPieces Template.callback 0).dropLast ++ written (refreshTo target) ::
      ((markupPieces Template.callback 1).tail.dropLast ++
        written (linkTo target) :: (markupPieces Template.callback 2).tail) := by
  have first : markupPieces Template.callback 0 = (markupPieces Template.callback 0).dropLast ++
      ["meta http-equiv=\"refresh\" content=\"0; url=".toList] := by
    rw [markupPieces_eq rfl]
    decide
  have second : markupPieces Template.callback 1 =
      ("\">\n  ".toList :: (markupPieces Template.callback 1).tail.dropLast) ++
        ["a id=\"next\" href=\"".toList] := by
    rw [markupPieces_eq rfl]
    decide
  have third : markupPieces Template.callback 2 =
      "\">Continue".toList :: (markupPieces Template.callback 2).tail := by
    rw [markupPieces_eq rfl]
    decide
  have slot := pieces_escape target
  rw [toList_callback, written_refreshTo, written_linkTo]
  exact pieces_append_of_eq first
    (pieces_append_of_eq slot (pieces_append_of_eq second (pieces_append_of_eq slot third)))

/-- The page has the tags of its template, two of them with the target. -/
theorem elements_callback : elements (Template.callback.render fun _ => target) =
    front ++ refreshTo target :: (middle ++ linkTo target :: back) := by
  have cut : (markupPieces Template.callback 0).dropLast ≠ [] := by
    rw [markupPieces_eq rfl]
    decide
  have labels : ∀ name ∈ ["meta", "http-equiv", "content", "a", "id", "href"], IsLabel name := by
    decide
  have refresh : element? (written (refreshTo target)) = some (refreshTo target) :=
    element?_written (labels "meta" (by simp)) (by simp [refreshTo, labels])
  have link : element? (written (linkTo target)) = some (linkTo target) :=
    element?_written (labels "a" (by simp)) (by simp [linkTo, labels])
  rw [elements, pieces_callback, List.tail_append_of_ne_nil cut, List.filterMap_append,
    List.filterMap_cons_some refresh, List.filterMap_append, List.filterMap_cons_some link]
  rfl

/-- What none of the tags before the link has is found in the two with the target or
behind them. -/
theorem filterMap_elements_callback {find : Element → Option String}
    (quiet : ∀ e ∈ front ++ middle, find e = none) :
    (elements (Template.callback.render fun _ => target)).filterMap find =
      (find (refreshTo target)).toList ++
        ((find (linkTo target)).toList ++ back.filterMap find) := by
  have one : ∀ (e : Element) (rest : List Element),
      (e :: rest).filterMap find = (find e).toList ++ rest.filterMap find := by
    intro e rest
    cases h : find e <;> simp [h]
  have before := List.filterMap_eq_nil_iff.mpr fun e he => quiet e (List.mem_append_left _ he)
  have between := List.filterMap_eq_nil_iff.mpr fun e he => quiet e (List.mem_append_right _ he)
  rw [elements_callback, List.filterMap_append, one, List.filterMap_append, one, before, between]
  rfl

/-- **The page of a finished login leads to its target**, and nowhere else. -/
theorem leads_callback : Leads (Template.callback.render fun _ => target) target := by
  have quiet : ∀ e ∈ front ++ middle, refresh? e = none ∧ next? e = none ∧ script? e = none := by
    rw [front, middle, markupPieces_eq rfl, markupPieces_eq rfl]
    decide +kernel
  have last : back.filterMap refresh? = [] ∧ back.filterMap next? = [] ∧
      back.filterMap script? = [follow] := by
    rw [back, markupPieces_eq rfl]
    decide +kernel
  obtain ⟨refresh, link, script⟩ := last
  constructor
  case refresh =>
    rw [filterMap_elements_callback target fun e he => (quiet e he).1, refresh]
    simp [refresh?, refreshTo, linkTo, Element.attribute?, List.lookup_cons]
  case link =>
    rw [filterMap_elements_callback target fun e he => (quiet e he).2.1, link]
    simp [next?, refreshTo, linkTo, Element.attribute?, List.lookup_cons]
  case script =>
    rw [filterMap_elements_callback target fun e he => (quiet e he).2.2, script]
    simp [script?, refreshTo, linkTo]

/-! ### The page that a login begins on -/

/-- The addresses that the links of a page lead to. -/
def links (page : String) : List String :=
  (elements page).filterMap fun e => if e.name = "a" then e.attribute? "href" else none

def buttonTo (link : String) : Element :=
  ⟨"a", [("class", "button"), ("id", "login"), ("href", link)], "Continue with single sign-on"⟩

/-- The tags of the template before the button. -/
def beforeButton : List Element :=
  (markupPieces Template.login 0).dropLast.tail.filterMap element?

/-- Those behind the button. -/
def behindButton : List Element :=
  (markupPieces Template.login 1).tail.filterMap element?

variable (link : String)

theorem written_buttonTo : written (buttonTo link) =
    "a class=\"button\" id=\"login\" href=\"".toList ++
      ((escape link).toList ++ "\">Continue with single sign-on".toList) := by
  have plain : escape "button" = "button" ∧ escape "login" = "login" := by decide
  simp [written, buttonTo, attributeText, plain]

theorem toList_login : (Template.login.render fun _ => link).toList =
    ((markup Template.login).getD 0 "").toList ++ ((escape link).toList ++
      ((markup Template.login).getD 1 "").toList) := by
  have joined : ∀ a b c : String, (String.join [a, b, c]).toList =
      a.toList ++ (b.toList ++ c.toList) := by
    simp
  exact joined ((markup Template.login).getD 0 "") (escape link)
    ((markup Template.login).getD 1 "")

/-- The address stands in one piece of the page, within the value of a tag. -/
theorem pieces_login : pieces '<' (Template.login.render fun _ => link).toList =
    (markupPieces Template.login 0).dropLast ++
      written (buttonTo link) :: (markupPieces Template.login 1).tail := by
  have first : markupPieces Template.login 0 = (markupPieces Template.login 0).dropLast ++
      ["a class=\"button\" id=\"login\" href=\"".toList] := by
    rw [markupPieces_eq rfl]
    decide
  have second : markupPieces Template.login 1 =
      "\">Continue with single sign-on".toList :: (markupPieces Template.login 1).tail := by
    rw [markupPieces_eq rfl]
    decide
  rw [toList_login, written_buttonTo]
  exact pieces_append_of_eq first (pieces_append_of_eq (pieces_escape link) second)

/-- The page has the tags of its template, one of them with the address. -/
theorem elements_login : elements (Template.login.render fun _ => link) =
    beforeButton ++ buttonTo link :: behindButton := by
  have cut : (markupPieces Template.login 0).dropLast ≠ [] := by
    rw [markupPieces_eq rfl]
    decide
  have labels : ∀ name ∈ ["a", "class", "id", "href"], IsLabel name := by decide
  have button : element? (written (buttonTo link)) = some (buttonTo link) :=
    element?_written (labels "a" (by simp)) (by simp [buttonTo, labels])
  rw [elements, pieces_login, List.tail_append_of_ne_nil cut, List.filterMap_append,
    List.filterMap_cons_some button]
  rfl

/-- **The page that a login begins on has one link**, with the address that it was made for. -/
theorem links_login : links (Template.login.render fun _ => link) = [link] := by
  have quiet : ∀ e ∈ beforeButton ++ behindButton,
      (if e.name = "a" then e.attribute? "href" else none) = none := by
    rw [beforeButton, behindButton, markupPieces_eq rfl, markupPieces_eq rfl]
    decide +kernel
  have early := List.filterMap_eq_nil_iff.mpr fun e he => quiet e (List.mem_append_left _ he)
  have late := List.filterMap_eq_nil_iff.mpr fun e he => quiet e (List.mem_append_right _ he)
  rw [links, elements_login, List.filterMap_append, early, List.nil_append, List.filterMap_cons,
    late]
  simp [buttonTo, Element.attribute?, List.lookup_cons]

end Page

end Gatehouse
