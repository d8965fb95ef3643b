import Gatehouse.Proofs.Json.Tokens

/-!
The grammar of JSON.

`Reads` says what stands at the front of some tokens, with what is left behind it: a value,
or the items or members that follow the first one up to the end of their array or object.
It has one rule for each way these are written. What is nested too deep and what has a name
without a text is a value all the same, but a void one.

* `passes_of_reads`: the reader passes what stands at the front as a whole and hands it on.
* `value?_foldl_step_eq_some_iff`: it comes to a value exactly on the tokens of that value.
* `read?_eq_some_iff`: the value of a text that is read is the one that the text denotes.
-/

namespace Gatehouse.Json

/-! ### The grammar -/

/-- An array within `depth` others. -/
def arrayOf (depth : Nat) (items : List Json) : Json :=
  if depth < depthLimit then .array items else .void

/-- An object within `depth` others, with members whose names may have no text. -/
def objectOf (depth : Nat) (members : List (Option String × Json)) : Json :=
  if depth < depthLimit ∧ members.all (·.1.isSome) then
    .object (members.map fun m => (m.1.getD "", m.2))
  else .void

/-- What tokens may be read as. -/
inductive Phrase where
  | value (j : Json)
  /-- The items behind an item, up to the end of their array. -/
  | items (items : List Json)
  /-- The members behind a member, up to the end of their object. -/
  | members (members : List (Option String × Json))

/-- What stands at the front of some tokens within `depth` open arrays and objects, and the
tokens behind it. -/
inductive Reads : Nat → List Token → Phrase → List Token → Prop
  | text {depth : Nat} {rest : List Token} (s : Option String) :
      Reads depth (.text s :: rest) (.value (s.elim .void .text)) rest
  | number {depth : Nat} {rest : List Token} (n : Option Number) :
      Reads depth (.number n :: rest) (.value (n.elim .void .number)) rest
  | bool {depth : Nat} {rest : List Token} (b : Bool) :
      Reads depth (.bool b :: rest) (.value (.bool b)) rest
  | null {depth : Nat} {rest : List Token} : Reads depth (.null :: rest) (.value .null) rest
  | emptyArray {depth : Nat} {rest : List Token} :
      Reads depth (.openArray :: .closeArray :: rest) (.value (arrayOf depth [])) rest
  | array {depth : Nat} {ts behind rest : List Token} {item : Json} {items : List Json}
      (first : Reads (depth + 1) ts (.value item) behind)
      (others : Reads (depth + 1) behind (.items items) rest) :
      Reads depth (.openArray :: ts) (.value (arrayOf depth (item :: items))) rest
  | emptyObject {depth : Nat} {rest : List Token} :
      Reads depth (.openObject :: .closeObject :: rest) (.value (objectOf depth [])) rest
  | object {depth : Nat} {name : Option String} {ts behind rest : List Token} {j : Json}
      {members : List (Option String × Json)} (first : Reads (depth + 1) ts (.value j) behind)
      (others : Reads (depth + 1) behind (.members members) rest) :
      Reads depth (.openObject :: .text name :: .colon :: ts)
        (.value (objectOf depth ((name, j) :: members))) rest
  | endItems {depth : Nat} {rest : List Token} : Reads depth (.closeArray :: rest) (.items []) rest
  | moreItems {depth : Nat} {ts behind rest : List Token} {item : Json} {items : List Json}
      (next : Reads depth ts (.value item) behind)
      (others : Reads depth behind (.items items) rest) :
      Reads depth (.comma :: ts) (.items (item :: items)) rest
  | endMembers {depth : Nat} {rest : List Token} :
      Reads depth (.closeObject :: rest) (.members []) rest
  | moreMembers {depth : Nat} {name : Option String} {ts behind rest : List Token} {j : Json}
      {members : List (Option String × Json)} (next : Reads depth ts (.value j) behind)
      (others : Reads depth behind (.members members) rest) :
      Reads depth (.comma :: .text name :: .colon :: ts) (.members ((name, j) :: members)) rest

section Reading

variable {depth : Nat} {ts rest : List Token} {phrase : Phrase} {j : Json}

theorem Reads.length_lt (h : Reads depth ts phrase rest) : rest.length < ts.length := by
  induction h with
  | text | number | bool | null | endItems | endMembers => exact Nat.lt_succ_self _
  | emptyArray | emptyObject => exact Nat.lt_succ_of_lt (Nat.lt_succ_self _)
  | array _ _ one more | moreItems _ _ one more =>
      exact Nat.lt_succ_of_lt (Nat.lt_trans more one)
  | object _ _ one more | moreMembers _ _ one more =>
      simp only [List.length_cons]
      omega

/-! ### What is read is passed -/

open Building

/-- An object of the members that were read, the latest first, and of those to come. -/
def objectWith (depth : Nat) (before : List (String × Json)) (named : Bool)
    (members : List (Option String × Json)) : Json :=
  if depth < depthLimit ∧ (named && members.all (·.1.isSome)) then
    .object (before.reverse ++ members.map fun m => (m.1.getD "", m.2))
  else .void

/-- The reader goes on behind a phrase with what the phrase comes to. -/
def Passes (depth : Nat) (ts : List Token) (rest : List Token) : Phrase → Prop
  | .value j => ∀ frames : List Frame, frames.length = depth →
      ts.foldl step ⟨frames, .value⟩ = rest.foldl step (deliver frames j)
  | .items items => ∀ (before : List Json) (outer : List Frame), outer.length + 1 = depth →
      ts.foldl step ⟨.array before :: outer, .commaOrClose⟩ =
        rest.foldl step (deliver outer (arrayOf outer.length (before.reverse ++ items)))
  | .members members => ∀ (before : List (String × Json)) (last : String) (named : Bool)
      (outer : List Frame), outer.length + 1 = depth →
      ts.foldl step ⟨.object before last named :: outer, .commaOrClose⟩ =
        rest.foldl step (deliver outer (objectWith outer.length before named members))

theorem name_text (before : List (String × Json)) (last : String) (named : Bool)
    (outer : List Frame) (name : Option String) :
    Building.name (.object before last named :: outer) (.text name) =
      ⟨.object before (name.getD "") (named && name.isSome) :: outer, .colon⟩ := by
  cases name with
  | some s => rw [Building.name, Option.getD_some, Option.isSome_some, Bool.and_true]
  | none => rw [Building.name, Option.getD_none, Option.isSome_none, Bool.and_false]

theorem objectWith_cons (before : List (String × Json)) (named : Bool) (name : Option String)
    (j : Json) (members : List (Option String × Json)) :
    objectWith depth ((name.getD "", j) :: before) (named && name.isSome) members =
      objectWith depth before named ((name, j) :: members) := by
  rw [objectWith, objectWith, Bool.and_assoc, List.all_cons, List.reverse_cons, List.append_assoc]
  rfl

theorem step_nameOrClose {frames : List Frame} {t : Token} (h : t ≠ .closeObject) :
    step ⟨frames, .nameOrClose⟩ t = step ⟨frames, .name⟩ t := by
  cases t with
  | closeObject => exact absurd rfl h
  | _ => rfl

/-- The first item of an array is read as any other value. -/
theorem foldl_step_valueOrClose {frames : List Frame} (h : Reads depth ts (.value j) rest) :
    ts.foldl step ⟨frames, .valueOrClose⟩ = ts.foldl step ⟨frames, .value⟩ := by
  cases h <;> rfl

/-- **What stands at the front is passed as a whole.** -/
theorem passes_of_reads (h : Reads depth ts phrase rest) : Passes depth ts rest phrase := by
  induction h with
  | text s =>
      intro frames _
      cases s <;> rfl
  | number n =>
      intro frames _
      cases n <;> rfl
  | bool | null =>
      intro frames _
      rfl
  | emptyArray =>
      rintro frames rfl
      rfl
  | @array _ ts behind rest item items first _ one more =>
      rintro frames rfl
      have head : ts.foldl step ⟨.array [] :: frames, .valueOrClose⟩ = _ :=
        (foldl_step_valueOrClose first).trans (one (.array [] :: frames) rfl)
      exact head.trans (more [item] frames rfl)
  | emptyObject =>
      rintro frames rfl
      rfl
  | @object _ name ts behind rest j members _ _ one more =>
      rintro frames rfl
      have begun : (Token.openObject :: .text name :: .colon :: ts).foldl step ⟨frames, .value⟩ =
          ts.foldl step ⟨.object [] (name.getD "") (true && name.isSome) :: frames, .value⟩ :=
        congrArg (fun b => ts.foldl step (step b .colon)) (name_text [] "" true frames name)
      have whole : objectOf frames.length ((name, j) :: members) =
          objectWith frames.length [] true ((name, j) :: members) := rfl
      rw [begun, one _ rfl, whole, ← objectWith_cons]
      exact more _ _ _ frames rfl
  | endItems =>
      rintro before outer -
      rw [List.append_nil]
      rfl
  | @moreItems _ ts behind rest item items _ _ one more =>
      rintro before outer rfl
      have last := more (item :: before) outer rfl
      rw [List.reverse_cons, List.append_assoc, List.singleton_append] at last
      exact (one (.array before :: outer) rfl).trans last
  | endMembers =>
      rintro before last named outer -
      have whole : objectWith outer.length before named [] =
          if outer.length < depthLimit ∧ named then .object before.reverse else .void := by
        simp [objectWith]
      rw [whole]
      rfl
  | @moreMembers _ name ts behind rest j members _ _ one more =>
      rintro before last named outer rfl
      have begun : (Token.comma :: .text name :: .colon :: ts).foldl step
            ⟨.object before last named :: outer, .commaOrClose⟩ =
          ts.foldl step ⟨.object before (name.getD "") (named && name.isSome) :: outer, .value⟩ :=
        congrArg (fun b => ts.foldl step (step b .colon)) (name_text before last named outer name)
      rw [begun, one _ rfl, ← objectWith_cons]
      exact more _ _ _ outer rfl

/-! ### Where the reader ends, something was read -/

theorem step_fault (frames : List Frame) (t : Token) : step ⟨frames, .fault⟩ t = ⟨[], .fault⟩ := by
  cases t <;> rfl

/-- A fault stays one. -/
theorem value?_of_fault (frames : List Frame) (ts : List Token) :
    (ts.foldl step ⟨frames, .fault⟩).value? = none := by
  induction ts generalizing frames with
  | nil => rfl
  | cons t rest ih => rw [List.foldl_cons, step_fault, ih]

theorem step_ne_fault {b : Building} {t : Token}
    (h : ((t :: ts).foldl step b).value? = some j) : step b t ≠ ⟨[], .fault⟩ := by
  intro fault
  rw [List.foldl_cons, fault, value?_of_fault] at h
  cases h

/-- Nothing may stand behind the value of a text. -/
theorem value?_of_nothing {frames : List Frame} {v : Json} :
    (ts.foldl step ⟨frames, .nothing v⟩).value? = some j ↔ ts = [] ∧ v = j := by
  cases ts with
  | nil => simp [value?]
  | cons t rest =>
      have fault : step ⟨frames, .nothing v⟩ t = ⟨[], .fault⟩ := by cases t <;> rfl
      rw [List.foldl_cons, fault, value?_of_fault]
      simp

/-- Where a member is wanted, its name and a colon stand. -/
theorem member_of_value? {before : List (String × Json)} {last : String} {named : Bool}
    {outer : List Frame}
    (h : (ts.foldl step ⟨.object before last named :: outer, .name⟩).value? = some j) :
    ∃ name behind, ts = .text name :: .colon :: behind ∧
      (behind.foldl step ⟨.object before (name.getD "") (named && name.isSome) :: outer,
        .value⟩).value? = some j := by
  cases ts with
  | nil => cases h
  | cons t behind =>
      cases t with
      | text name =>
          have head : (Token.text name :: behind).foldl step
              ⟨.object before last named :: outer, .name⟩ = _ :=
            congrArg (fun b => behind.foldl step b) (name_text before last named outer name)
          rw [head] at h
          cases behind with
          | nil => cases h
          | cons t behind =>
              cases t with
              | colon => exact ⟨name, behind, rfl, h⟩
              | _ => exact absurd rfl (step_ne_fault h)
      | _ => exact absurd rfl (step_ne_fault h)

/-- The reader comes to a value from the tokens, and what it wants is at their front. -/
def Finds (ts : List Token) : Prop :=
  (∀ {frames : List Frame} {j : Json}, (ts.foldl step ⟨frames, .value⟩).value? = some j →
    ∃ v rest, Reads frames.length ts (.value v) rest) ∧
  (∀ {before : List Json} {outer : List Frame} {j : Json},
    (ts.foldl step ⟨.array before :: outer, .commaOrClose⟩).value? = some j →
    ∃ items rest, Reads (outer.length + 1) ts (.items items) rest) ∧
  ∀ {before : List (String × Json)} {last : String} {named : Bool} {outer : List Frame} {j : Json},
    (ts.foldl step ⟨.object before last named :: outer, .commaOrClose⟩).value? = some j →
    ∃ members rest, Reads (outer.length + 1) ts (.members members) rest

section Parts

variable {n : Nat} {outer : List Frame}

/-- Behind the mark before an item, the item stands with those that follow it. -/
theorem items_of_value? {before : List Json}
    (found : ∀ us : List Token, us.length ≤ n → Finds us) (le : ts.length ≤ n)
    (h : (ts.foldl step ⟨.array before :: outer, .value⟩).value? = some j) :
    ∃ item items behind rest, Reads (outer.length + 1) ts (.value item) behind ∧
      Reads (outer.length + 1) behind (.items items) rest := by
  obtain ⟨item, behind, first⟩ := (found ts le).1 h
  rw [passes_of_reads first _ rfl] at h
  have less := Nat.le_of_lt (Nat.lt_of_lt_of_le first.length_lt le)
  obtain ⟨items, rest, others⟩ := (found behind less).2.1 h
  exact ⟨item, items, behind, rest, first, others⟩

/-- Behind the mark before a member, the member stands with those that follow it. -/
theorem members_of_value? {before : List (String × Json)} {last : String} {named : Bool}
    (found : ∀ us : List Token, us.length ≤ n → Finds us) (le : ts.length ≤ n)
    (h : (ts.foldl step ⟨.object before last named :: outer, .name⟩).value? = some j) :
    ∃ name inner v members behind rest, ts = .text name :: .colon :: inner ∧
      Reads (outer.length + 1) inner (.value v) behind ∧
      Reads (outer.length + 1) behind (.members members) rest := by
  obtain ⟨name, inner, rfl, next⟩ := member_of_value? h
  have fewer := Nat.le_trans (Nat.le_add_right inner.length 2) le
  obtain ⟨v, behind, first⟩ := (found inner fewer).1 next
  rw [passes_of_reads first _ rfl] at next
  have less := Nat.le_of_lt (Nat.lt_of_lt_of_le first.length_lt fewer)
  obtain ⟨members, rest, others⟩ := (found behind less).2.2 next
  exact ⟨name, inner, v, members, behind, rest, rfl, first, others⟩

/-- What begins with a bracket is an array. -/
theorem array_of_value? (found : ∀ us : List Token, us.length ≤ n → Finds us)
    (le : ts.length ≤ n)
    (h : (ts.foldl step ⟨.array [] :: outer, .valueOrClose⟩).value? = some j) :
    ∃ v rest, Reads outer.length (.openArray :: ts) (.value v) rest := by
  cases ts with
  | nil => cases h
  | cons t ts =>
      cases t with
      | closeArray => exact ⟨_, ts, .emptyArray⟩
      | _ =>
          obtain ⟨_, _, _, rest, first, others⟩ := items_of_value? found le h
          exact ⟨_, rest, .array first others⟩

/-- What begins with a brace is an object. -/
theorem object_of_value? (found : ∀ us : List Token, us.length ≤ n → Finds us)
    (le : ts.length ≤ n)
    (h : (ts.foldl step ⟨.object [] "" true :: outer, .nameOrClose⟩).value? = some j) :
    ∃ v rest, Reads outer.length (.openObject :: ts) (.value v) rest := by
  cases ts with
  | nil => cases h
  | cons t ts =>
      by_cases closes : t = .closeObject
      · subst closes
        exact ⟨_, ts, .emptyObject⟩
      · rw [List.foldl_cons, step_nameOrClose closes, ← List.foldl_cons] at h
        obtain ⟨name, inner, v, members, behind, rest, same, first, others⟩ :=
          members_of_value? found le h
        rw [same]
        exact ⟨_, rest, .object first others⟩

end Parts

/-- **Where the reader ends, what it wanted was at the front.** -/
theorem finds (ts : List Token) : Finds ts := by
  -- by their number, as the parts of a phrase begin behind tokens of its own
  generalize length : ts.length = n
  induction n using Nat.strongRecOn generalizing ts with
  | _ n ih =>
      cases ts with
      | nil => exact ⟨nofun, nofun, nofun⟩
      | cons t ts =>
          have found : ∀ us : List Token, us.length ≤ ts.length → Finds us := by
            intro us le
            exact ih us.length (length ▸ Nat.lt_succ_of_le le) us rfl
          refine ⟨fun {frames j} h => ?_, fun {before outer j} h => ?_,
            fun {before last named outer j} h => ?_⟩
          · cases t with
            | text s => exact ⟨_, ts, .text s⟩
            | number n => exact ⟨_, ts, .number n⟩
            | bool b => exact ⟨_, ts, .bool b⟩
            | null => exact ⟨_, ts, .null⟩
            | openArray => exact array_of_value? found (Nat.le_refl _) h
            | openObject => exact object_of_value? found (Nat.le_refl _) h
            | _ => exact absurd rfl (step_ne_fault h)
          · cases t with
            | closeArray => exact ⟨_, ts, .endItems⟩
            | comma =>
                obtain ⟨_, _, _, rest, next, others⟩ := items_of_value? found (Nat.le_refl _) h
                exact ⟨_, rest, .moreItems next others⟩
            | _ => exact absurd rfl (step_ne_fault h)
          · cases t with
            | closeObject => exact ⟨_, ts, .endMembers⟩
            | comma =>
                obtain ⟨name, inner, v, members, behind, rest, rfl, next, others⟩ :=
                  members_of_value? found (Nat.le_refl _) h
                exact ⟨_, rest, .moreMembers next others⟩
            | _ => exact absurd rfl (step_ne_fault h)

/-- **The reader comes to a value exactly on the tokens of that value.** -/
theorem value?_foldl_step_eq_some_iff :
    (ts.foldl step ⟨[], .value⟩).value? = some j ↔ Reads 0 ts (.value j) [] := by
  constructor
  · intro h
    obtain ⟨v, rest, reads⟩ := (finds ts).1 h
    rw [passes_of_reads reads [] rfl] at h
    obtain ⟨rfl, rfl⟩ := value?_of_nothing.mp h
    exact reads
  · intro reads
    rw [passes_of_reads reads [] rfl]
    rfl

end Reading

/-! ### Texts -/

/-- The text is JSON for a value: it is written in the tokens of the value, and nothing else
is in it. -/
def Denotes (text : String) (j : Json) : Prop :=
  ∃ ts, Lexes text.toList ts ∧ Reads 0 ts (.value j) []

/-- **The value that is read is the one that the text denotes.** -/
theorem read?_eq_some_iff {text : String} {j : Json} : read? text = some j ↔ Denotes text j := by
  rw [read?, Option.bind_eq_bind, Option.bind_eq_some_iff, Denotes]
  simp only [tokens?_eq_some_iff, value?_foldl_step_eq_some_iff]

/-! ### Numbers -/

/-- The parts that a value is made of. -/
def parts : Json → List Json
  | .array items => items
  | .object members => members.map Prod.snd
  | _ => []

/-- The values that a phrase is made of, one deep. -/
def Phrase.values : Phrase → List Json
  | .value j => j :: j.parts
  | .items js => js
  | .members ms => ms.map Prod.snd

section Numbers

variable {depth : Nat} {ts rest : List Token} {phrase : Phrase} {n : Number}

theorem Reads.suffix (h : Reads depth ts phrase rest) : rest <:+ ts := by
  induction h with
  | text | number | bool | null | endItems | endMembers => exact List.suffix_cons _ _
  | emptyArray | emptyObject => exact (List.suffix_cons _ _).trans (List.suffix_cons _ _)
  | array _ _ one more | moreItems _ _ one more =>
      exact (more.trans one).trans (List.suffix_cons _ _)
  | object _ _ one more | moreMembers _ _ one more =>
      exact (more.trans one).trans (List.suffix_append [_, _, _] _)

theorem mem_of_arrayOf {items : List Json}
    (h : .number n ∈ (Phrase.value (arrayOf depth items)).values) : .number n ∈ items := by
  unfold arrayOf at h
  split at h
  · simpa [Phrase.values, parts] using h
  · simp [Phrase.values, parts] at h

theorem mem_of_objectOf {members : List (Option String × Json)}
    (h : .number n ∈ (Phrase.value (objectOf depth members)).values) :
    .number n ∈ members.map Prod.snd := by
  unfold objectOf at h
  split at h
  · simpa [Phrase.values, parts] using h
  · simp [Phrase.values, parts] at h

/-- A number that is the first part or is among the later ones stands where these begin. -/
theorem mem_of_first_or_later {item : Json} {later : List Json}
    (first : Reads depth ts (.value item) rest)
    (one : .number n ∈ (Phrase.value item).values → .number (some n) ∈ ts)
    (more : .number n ∈ later → .number (some n) ∈ rest) (mem : .number n ∈ item :: later) :
    .number (some n) ∈ ts := by
  rcases List.mem_cons.mp mem with same | behind
  · exact one (same ▸ List.mem_cons_self)
  · exact first.suffix.mem (more behind)

/-- The numbers of a phrase stand among the tokens that it is read from. -/
theorem Reads.mem_of_number (h : Reads depth ts phrase rest) (mem : .number n ∈ phrase.values) :
    .number (some n) ∈ ts := by
  induction h with
  | text s => cases s <;> simp [Phrase.values, parts] at mem
  | number m =>
      cases m with
      | none => simp [Phrase.values, parts] at mem
      | some m =>
          obtain rfl : n = m := by simpa [Phrase.values, parts] using mem
          exact List.mem_cons_self
  | bool | null => simp [Phrase.values, parts] at mem
  | emptyArray => exact absurd (mem_of_arrayOf mem) List.not_mem_nil
  | emptyObject => exact absurd (mem_of_objectOf mem) List.not_mem_nil
  | endItems | endMembers => exact absurd mem List.not_mem_nil
  | array first _ one more =>
      exact List.mem_cons_of_mem _ (mem_of_first_or_later first one more (mem_of_arrayOf mem))
  | moreItems next _ one more =>
      exact List.mem_cons_of_mem _ (mem_of_first_or_later next one more mem)
  | object first _ one more =>
      have inside := mem_of_first_or_later first one more (mem_of_objectOf mem)
      exact (List.suffix_append [_, _, _] _).mem inside
  | moreMembers next _ one more =>
      have inside := mem_of_first_or_later next one more mem
      exact (List.suffix_append [_, _, _] _).mem inside

end Numbers

/-- **A whole number of a text fits 64 bits**, with a sign or without. -/
theorem Denotes.int_bounds {text : String} {j : Json} {i : Int} (h : Denotes text j)
    (mem : .number (.int i) ∈ j.parts) :
    -(Text.Decimal.max63 + 1 : Int) ≤ i ∧ i ≤ Text.Decimal.max64 := by
  obtain ⟨ts, lexes, reads⟩ := h
  exact lexes.int_bounds (reads.mem_of_number (List.mem_cons_of_mem _ mem))

end Gatehouse.Json
