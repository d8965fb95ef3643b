import Gatehouse.Proofs.Page

/-!
What a page shows and what it is made of.

A browser goes through a page from left to right and knows at every character whether
it is in a text, in a tag or within the quotes of a value. Only four marks lead it from
one of these regions to another. An escaped text has none of them, so wherever it is put
it is passed in one region, and the regions of a page are those of its template.

* `Html.stretches_spell`: texts without these marks are put into a template before or
  after the cut into regions alike.
* `Html.reading_render`: a page reads as its template, with every text in its slot as it
  was before it was escaped.
* `Html.outline_render`: the regions of a page and the contents of its tags are the same
  whatever it shows.
* `Page.pages_show_their_texts`: so it is with the pages of a login.
-/

namespace Gatehouse

namespace Text.Html

/-! ### Regions -/

/-- Where a character of a page stands. -/
inductive Region where
  | text
  | tag
  /-- Within the double quotes of a value. -/
  | quoted
  /-- Within the apostrophes of a value. -/
  | apostrophes
  deriving DecidableEq, Repr

/-- Where the next character stands. -/
def Region.after : Region → Char → Region
  | .text, '<' => .tag
  | .tag, '>' => .text
  | .tag, '"' => .quoted
  | .tag, '\'' => .apostrophes
  | .quoted, '"' => .tag
  | .apostrophes, '\'' => .tag
  | here, _ => here

/-- The region is one of a text. -/
def Region.isText (r : Region) : Bool :=
  r = .text

/-- The region is one of a value. -/
def Region.isValue (r : Region) : Bool :=
  r = .quoted || r = .apostrophes

/-- Cut where the region changes. The letter at which it does is in neither of the two
stretches: it is known from their regions. -/
def stretches {α : Type} (after : Region → α → Region) : Region → List α → List (Region × List α)
  | here, [] => [(here, [])]
  | here, a :: rest =>
      if after here a = here then (stretches after here rest).modifyHead fun p => (p.1, a :: p.2)
      else (here, []) :: stretches after (after here a) rest

section Stretches

variable {α : Type} {after : Region → α → Region} {here : Region} {front : List α}

theorem Region.after_of_not_mem {c : Char} (plain : c ∉ boundaries) (here : Region) :
    here.after c = here := by
  unfold Region.after
  split
  case h_7 => rfl
  all_goals exact absurd (by decide) plain

/-- What leads to no other region belongs to the stretch that it is met in. -/
theorem stretches_append (steady : ∀ a ∈ front, after here a = here) (rest : List α) :
    stretches after here (front ++ rest) =
      (stretches after here rest).modifyHead fun p => (p.1, front ++ p.2) := by
  induction front with
  | nil => cases cut : stretches after here rest <;> simp [cut]
  | cons a front ih =>
      obtain ⟨first, later⟩ := List.forall_mem_cons.mp steady
      rw [List.cons_append, stretches, if_pos first, ih later, List.modifyHead_modifyHead]
      rfl

/-- A cut adds no letter. -/
theorem mem_of_mem_stretches {as : List α} {p : Region × List α} {a : α}
    (hp : p ∈ stretches after here as) (ha : a ∈ p.2) : a ∈ as := by
  induction as generalizing here p with
  | nil =>
      obtain rfl := List.mem_singleton.mp hp
      exact ha
  | cons b rest ih =>
      rw [stretches] at hp
      split at hp
      · cases cut : stretches after here rest with
        | nil =>
            rw [cut] at hp
            exact absurd hp List.not_mem_nil
        | cons q qs =>
            rw [cut, List.modifyHead_cons] at hp
            rcases List.mem_cons.mp hp with rfl | hp
            · rcases List.mem_cons.mp ha with rfl | ha
              · exact List.mem_cons_self
              · exact List.mem_cons_of_mem _ (ih (cut ▸ List.mem_cons_self) ha)
            · exact List.mem_cons_of_mem _ (ih (cut ▸ List.mem_cons_of_mem _ hp) ha)
      · rcases List.mem_cons.mp hp with rfl | hp
        · exact absurd ha List.not_mem_nil
        · exact List.mem_cons_of_mem _ (ih hp ha)

end Stretches

/-! ### What is read -/

/-- What a stretch of a page means: character references stand in texts and in values. -/
def Region.meaning : Region → List Char → String
  | .tag, cs => String.ofList cs
  | _, cs => unescape cs

/-- A page as it is read: the contents of its regions in order. -/
def reading (page : String) : List (Region × String) :=
  (stretches Region.after .text page.toList).map fun p => (p.1, p.1.meaning p.2)

/-- The regions of a page in order, with the contents of its tags. -/
def outline (page : String) : List (Region × Option String) :=
  (reading page).map fun p => (p.1, if p.1 = .tag then some p.2 else none)

/-- The contents of some regions of a page in order. -/
def contents (which : Region → Bool) (page : String) : List String :=
  ((reading page).filter fun p => which p.1).map Prod.snd

/-- The texts of a page. -/
def texts : String → List String :=
  contents Region.isText

/-- The values of the attributes of a page. -/
def values : String → List String :=
  contents Region.isValue

end Text.Html

/-! ### The letters of a template -/

/-- A slot counts as one letter of a template. -/
inductive Letter where
  | char (c : Char)
  | slot (s : Slot)
  deriving DecidableEq, Repr

namespace Letter

/-- A slot with a text in it, and a character as it is. -/
def spell (words : Slot → String) : Letter → List Char
  | char c => [c]
  | slot s => (words s).toList

/-- A slot leads to no other region. -/
def after : Text.Html.Region → Letter → Text.Html.Region
  | here, char c => here.after c
  | here, slot _ => here

def isSlot : Letter → Bool
  | char _ => false
  | slot _ => true

end Letter

namespace Template

open Text.Html

variable {t : Template} {words fill : Slot → String}

/-- A template with a text in every slot, as the text stands. -/
def putIn (words : Slot → String) (t : Template) : String :=
  String.join (t.map fun
    | .markup text => text
    | .slot s => words s)

def letters (t : Template) : List Letter :=
  t.flatMap fun
    | .markup text => text.toList.map .char
    | .slot s => [.slot s]

/-- The regions of a template in order. -/
def parts (t : Template) : List (Region × List Letter) :=
  stretches Letter.after .text t.letters

/-- No slot stands in a tag outside of quotes, and the template itself has no character
references. -/
def WellPlaced (t : Template) : Prop :=
  (∀ p ∈ t.parts, p.1 = .tag → ∀ l ∈ p.2, l.isSlot = false) ∧ .char '&' ∉ t.letters

-- The letters of a template are spelt with these: a check that runs over `String.toList`
-- decodes the text of the template again and again.
theorem letters_markup {cs : List Char} {rest : Template} {ls : List Letter}
    (h : rest.letters = ls) :
    letters (.markup (String.ofList cs) :: rest) = cs.map .char ++ ls := by
  have text : (String.ofList cs).toList = cs := String.toList_ofList
  rw [← h]
  exact congrArg (fun cs : List Char => cs.map Letter.char ++ rest.letters) text

theorem letters_slot {s : Slot} {rest : Template} {ls : List Letter} (h : rest.letters = ls) :
    letters (.slot s :: rest) = .slot s :: ls :=
  congrArg (Letter.slot s :: ·) h

theorem render_eq_putIn (fill : Slot → String) (t : Template) :
    t.render fill = t.putIn fun s => escape (fill s) :=
  rfl

@[simp] theorem putIn_nil (words : Slot → String) : putIn words [] = "" :=
  rfl

@[simp] theorem putIn_markup (words : Slot → String) (text : String) (rest : Template) :
    putIn words (.markup text :: rest) = text ++ putIn words rest :=
  String.join_cons

@[simp] theorem putIn_slot (words : Slot → String) (s : Slot) (rest : Template) :
    putIn words (.slot s :: rest) = words s ++ putIn words rest :=
  String.join_cons

theorem toList_putIn (words : Slot → String) (t : Template) :
    (t.putIn words).toList = t.letters.flatMap (Letter.spell words) := by
  rw [putIn, String.toList_join, letters, List.flatMap_map, List.flatMap_assoc]
  refine List.flatMap_congr fun p _ => ?_
  cases p with
  | markup text => simp [List.flatMap_map, Letter.spell]
  | slot s => simp [Letter.spell]

end Template

namespace Text.Html

open Template

variable {t : Template} {words fill : Slot → String}

/-- **Texts without marks change no region**: it is the same whether they are put into a
template before or after the cut. -/
theorem stretches_spell (inert : ∀ s, ∀ c ∈ boundaries, c ∉ (words s).toList) (here : Region)
    (ls : List Letter) :
    stretches Region.after here (ls.flatMap (Letter.spell words)) =
      (stretches Letter.after here ls).map fun p => (p.1, p.2.flatMap (Letter.spell words)) := by
  have commutes : ∀ (front : List Char) (l : Letter) (cut : List (Region × List Letter)),
      l.spell words = front →
      (cut.map fun p => (p.1, p.2.flatMap (Letter.spell words))).modifyHead
          (fun p => (p.1, front ++ p.2)) =
        (cut.modifyHead fun p => (p.1, l :: p.2)).map
          fun p => (p.1, p.2.flatMap (Letter.spell words)) := by
    rintro front l cut rfl
    cases cut <;> simp
  induction ls generalizing here with
  | nil => rfl
  | cons l rest ih =>
      cases l with
      | char c =>
          rw [List.flatMap_cons, Letter.spell, List.singleton_append, stretches, stretches]
          by_cases stays : here.after c = here
          · rw [if_pos stays, if_pos (show Letter.after here (.char c) = here from stays), ih]
            exact commutes [c] (.char c) _ rfl
          · rw [if_neg stays, if_neg (show Letter.after here (.char c) ≠ here from stays), ih]
            rfl
      | slot s =>
          have steady : ∀ c ∈ (words s).toList, here.after c = here := by
            intro c hc
            exact Region.after_of_not_mem (fun mark => inert s c mark hc) here
          have stays : Letter.after here (.slot s) = here := rfl
          rw [List.flatMap_cons, Letter.spell, stretches_append steady, stretches, if_pos stays, ih]
          exact commutes _ (.slot s) _ rfl

/-- Letters read as they are spelt before any text is escaped. -/
theorem unescape_flatMap_spell {ls : List Letter} (plain : .char '&' ∉ ls) :
    unescape (ls.flatMap (Letter.spell fun s => escape (fill s))) =
      String.ofList (ls.flatMap (Letter.spell fill)) := by
  rw [unescape]
  congr 1
  induction ls with
  | nil => rfl
  | cons l rest ih =>
      obtain ⟨ne, later⟩ := List.ne_and_not_mem_of_not_mem_cons plain
      rw [List.flatMap_cons, List.flatMap_cons, ← ih later]
      cases l with
      | char c =>
          have other : c ≠ '&' := by
            rintro rfl
            exact ne rfl
          rw [Letter.spell, List.singleton_append, unescapeFrom, if_neg other]
          rfl
      | slot s => exact unescapeFrom_escape_append (fill s) _

theorem flatMap_spell_of_no_slot {ls : List Letter} (fixed : ∀ l ∈ ls, l.isSlot = false)
    (words other : Slot → String) :
    ls.flatMap (Letter.spell words) = ls.flatMap (Letter.spell other) := by
  refine List.flatMap_congr fun l hl => ?_
  cases l with
  | char c => rfl
  | slot s => exact absurd (fixed _ hl) (by simp [Letter.isSlot])

/-- **A page reads as its template**, with every text as it was before it was escaped. -/
theorem reading_render (placed : t.WellPlaced) (fill : Slot → String) :
    reading (t.render fill) =
      t.parts.map fun p => (p.1, String.ofList (p.2.flatMap (Letter.spell fill))) := by
  have inert : ∀ s, ∀ c ∈ boundaries, c ∉ (escape (fill s)).toList :=
    fun s c mark => not_mem_escape mark (fill s)
  rw [reading, render_eq_putIn, toList_putIn, stretches_spell inert, List.map_map]
  refine List.map_congr_left fun p hp => ?_
  have plain : .char '&' ∉ p.2 := fun h => placed.2 (mem_of_mem_stretches hp h)
  obtain ⟨region, ls⟩ := p
  cases region with
  | tag =>
      have same := flatMap_spell_of_no_slot (placed.1 _ hp rfl) (fun s => escape (fill s)) fill
      exact congrArg (fun cs => (Region.tag, String.ofList cs)) same
  | text | quoted | apostrophes => exact congrArg (Prod.mk _) (unescape_flatMap_spell plain)

/-- **The tags of a page and the bounds of its values are the same whatever it shows.** -/
theorem outline_render (placed : t.WellPlaced) (fill other : Slot → String) :
    outline (t.render fill) = outline (t.render other) := by
  rw [outline, outline, reading_render placed, reading_render placed, List.map_map, List.map_map]
  refine List.map_congr_left fun p hp => ?_
  by_cases tag : p.1 = .tag
  · have same := flatMap_spell_of_no_slot (placed.1 p hp tag) fill other
    simp [tag, same]
  · simp [tag]

/-- The contents of some regions, as the template has them. -/
theorem contents_render (placed : t.WellPlaced) {which : Region → Bool} {found : List Template}
    (has : (t.parts.filter fun p => which p.1).map Prod.snd = found.map letters)
    (fill : Slot → String) : contents which (t.render fill) = found.map (putIn fill) := by
  have spelt : ∀ u : Template,
      String.ofList (u.letters.flatMap (Letter.spell fill)) = u.putIn fill := by
    intro u
    rw [← toList_putIn, String.ofList_toList]
  have each := congrArg (List.map fun ls => String.ofList (ls.flatMap (Letter.spell fill))) has
  rw [List.map_map, List.map_map] at each
  rw [contents, reading_render placed, List.filter_map, List.map_map]
  exact each.trans (List.map_congr_left fun u _ => spelt u)

end Text.Html

/-! ### The pages of a login -/

namespace Page

open Text.Html Template

/-- What a page shows of what it is made for. -/
structure Shows (t : Template) (shown : Slot → String) (page : String) : Prop where
  /-- It is the template with a text in every slot that has no mark and that reads as
  what the slot is for. -/
  filled : ∃ words : Slot → String, page = t.putIn words ∧
    ∀ s, (∀ c ∈ boundaries, c ∉ (words s).toList) ∧ unescape (words s).toList = shown s
  /-- Its tags and the bounds of its values are those of the template with nothing in it. -/
  bounds : outline page = outline (t.putIn fun _ => "")
  /-- It reads as the template does with what the slots are for in their place. -/
  reads : reading page =
    t.parts.map fun p => (p.1, String.ofList (p.2.flatMap (Letter.spell shown)))

theorem shows_render {t : Template} (placed : t.WellPlaced) (shown : Slot → String) :
    Shows t shown (t.render shown) := by
  constructor
  case filled =>
    refine ⟨fun s => escape (shown s), Template.render_eq_putIn shown t, fun s => ⟨?_, ?_⟩⟩
    · intro c mark
      exact not_mem_escape mark (shown s)
    · exact unescape_escape (shown s)
  case bounds =>
    have nothing : t.render (fun _ => "") = t.putIn fun _ => "" := Template.render_eq_putIn _ t
    rw [outline_render placed shown fun _ => "", nothing]
  case reads => exact reading_render placed shown

/-! #### The page that a login begins on -/

set_option maxRecDepth 4000 in
theorem login_parts : Template.login.WellPlaced ∧
    (Template.login.parts.filter fun p => p.1.isValue).map Prod.snd =
      [[.markup "en"], [.markup "utf-8"], [.markup "login"], [.markup "button"], [.markup "login"],
        [.slot .link]].map Template.letters := by
  have spelt : Template.login.letters = _ := letters_markup (letters_slot (letters_markup rfl))
  rw [Template.WellPlaced, Template.parts, spelt]
  decide +kernel

theorem values_login (link : String) : values (Template.login.render fun _ => link) =
    ["en", "utf-8", "login", "button", "login", link] := by
  obtain ⟨placed, has⟩ := login_parts
  rw [values, contents_render placed has]
  simp

/-! #### The page that a login ends on -/

set_option maxRecDepth 4000 in
theorem callback_parts : Template.callback.WellPlaced ∧
    (Template.callback.parts.filter fun p => p.1.isValue).map Prod.snd =
      [[.markup "en"], [.markup "utf-8"], [.markup "refresh"], [.markup "0; url=", .slot .target],
        [.markup "next"], [.slot .target]].map Template.letters := by
  have spelt : Template.callback.letters = _ :=
    letters_markup (letters_slot (letters_markup (letters_slot (letters_markup rfl))))
  rw [Template.WellPlaced, Template.parts, spelt]
  decide +kernel

theorem values_callback (target : String) : values (Template.callback.render fun _ => target) =
    ["en", "utf-8", "refresh", "0; url=" ++ target, "next", target] := by
  obtain ⟨placed, has⟩ := callback_parts
  rw [values, contents_render placed has]
  simp

/-! #### The page of a failed login -/

/-- What the slots of the page stand for. -/
def failureWords (loginPath message : String) : Slot → String
  | .message => message
  | _ => loginPath

set_option maxRecDepth 4000 in
theorem failure_parts : Template.failure.WellPlaced ∧
    (Template.failure.parts.filter fun p => p.1.isValue).map Prod.snd =
      [[.markup "en"], [.markup "utf-8"], [.markup "error"], [.slot .login]].map Template.letters ∧
    (Template.failure.parts.filter fun p => p.1.isText).map Prod.snd =
      [[], [.markup "\n"], [.markup "\n"], [], [], [.markup "Sign-in failed · Flowra"], [],
        [.markup "\n"], [.markup "\n  "], [.markup "\n    "], [.markup "Sign-in failed"],
        [.markup "\n    "], [.slot .message], [.markup "\n    "], [.markup "Try again"],
        [.markup "\n  "], [.markup "\n"], [.markup "\n"], [.markup "\n"]].map Template.letters := by
  have spelt : Template.failure.letters = _ :=
    letters_markup (letters_slot (letters_markup (letters_slot (letters_markup rfl))))
  rw [Template.WellPlaced, Template.parts, spelt]
  decide +kernel

section Failure

variable (loginPath message : String)

theorem values_failure : values (Template.failure.render (failureWords loginPath message)) =
    ["en", "utf-8", "error", loginPath] := by
  obtain ⟨placed, has, -⟩ := failure_parts
  rw [values, contents_render placed has]
  simp [failureWords]

theorem texts_failure : texts (Template.failure.render (failureWords loginPath message)) =
    ["", "\n", "\n", "", "", "Sign-in failed · Flowra", "", "\n", "\n  ", "\n    ",
      "Sign-in failed", "\n    ", message, "\n    ", "Try again", "\n  ", "\n", "\n", "\n"] := by
  obtain ⟨placed, -, has⟩ := failure_parts
  rw [texts, contents_render placed has]
  simp [failureWords]

end Failure

/-! #### All of them -/

/-- **The pages of a login show what they are made for, and it changes no tag and no
bound of a value.** The address of a login is the last value of its page, the target of a
finished login stands in the refresh and in the link of its page, and the message of a
failed one is a text of its own before the address where a login begins. -/
theorem pages_show_their_texts (link target loginPath message : String) :
    (∃ page, Page.login link = .html 200 page ∧
      Shows Template.login (fun _ => link) page ∧
      values page = ["en", "utf-8", "login", "button", "login", link]) ∧
    (∃ page, Page.callback target = .html 200 page ∧
      Shows Template.callback (fun _ => target) page ∧ Leads page target ∧
      values page = ["en", "utf-8", "refresh", "0; url=" ++ target, "next", target]) ∧
    ∃ page, Page.failure loginPath message = .html 400 page ∧
      Shows Template.failure (failureWords loginPath message) page ∧
      values page = ["en", "utf-8", "error", loginPath] ∧
      texts page = ["", "\n", "\n", "", "", "Sign-in failed · Flowra", "", "\n", "\n  ", "\n    ",
        "Sign-in failed", "\n    ", message, "\n    ", "Try again", "\n  ", "\n", "\n", "\n"] := by
  refine ⟨⟨_, rfl, ?_, values_login link⟩,
    ⟨_, rfl, ?_, leads_callback target, values_callback target⟩,
    ⟨Template.failure.render (failureWords loginPath message), ?_, ?_,
      values_failure loginPath message, texts_failure loginPath message⟩⟩
  · exact shows_render login_parts.1 _
  · exact shows_render callback_parts.1 _
  · have same : ∀ s, (match s with | .message => message | _ => loginPath) =
        failureWords loginPath message s := by
      intro s
      cases s <;> rfl
    exact congrArg (fun fill => Http.Response.html 400 (Template.failure.render fill)) (funext same)
  · exact shows_render failure_parts.1 _

end Page

end Gatehouse
