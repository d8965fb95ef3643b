import Gatehouse.Json.Record
import Gatehouse.Proofs.Assoc

/-!
Records read by the names of their fields.

An object that gives no field twice is a record of the members that are found under
the names (`record?_object`). Dropping hidden members leaves an object of this kind,
and leaves under each name what was found there (`get?_settled`), so a settled object
is always a record of what its names find (`record?_settled`). A record in either form
is read field by field (`getElem?_of_record?`), and `Gives` says which values are records
without a word on how they are read (`record?_eq_some_iff`).
-/

namespace Gatehouse.Json

variable {name : String} {members : List (String × Json)} {j : Json}

/-! ### Members -/

theorem last?_cons (name other : String) (j : Json) (rest : List (String × Json)) :
    last? name ((other, j) :: rest) =
      (last? name rest).or (if name = other then some j else none) := by
  rw [last?, List.reverse_cons, List.lookup_append, ← last?]
  by_cases same : name = other
  · simp [same]
  · rw [Assoc.lookup_cons_ne same, List.lookup_nil, if_neg same]

theorem last?_eq_none : last? name members = none ↔ ∀ m ∈ members, m.1 ≠ name := by
  simp only [last?, List.lookup_eq_none_iff, List.mem_reverse, bne_iff_ne, ne_comm]

/-- A member that is given once is the one that is found. -/
theorem last?_of_single? {found : Option Json} (h : single? name members = some found) :
    last? name members = found := by
  unfold single? at h
  split at h
  · rename_i empty
    cases h
    refine last?_eq_none.mpr fun m hm same => ?_
    exact absurd empty (List.ne_nil_of_mem (List.mem_filter.mpr ⟨hm, by simpa using same⟩))
  · rename_i m one
    cases h
    have kept : (members.reverse.filter fun e => e.1 == name).lookup name = last? name members :=
      Assoc.lookup_filter_key (p := fun k => k == name) (by simp) members.reverse
    have named : m.1 = name := by
      have mem : m ∈ members.filter fun e => e.1 == name := one ▸ List.mem_singleton_self m
      simpa using (List.mem_filter.mp mem).2
    rw [← kept, List.filter_reverse, one, ← named]
    exact List.lookup_cons_self
  · cases h

/-! ### Hidden members -/

theorem settledMembers_eq_map (members : List (String × Json)) :
    settledMembers members = members.map fun m => (m.1, settled m.2) := by
  induction members with
  | nil => rfl
  | cons m rest ih => rw [settledMembers, ih, List.map_cons]

theorem settledItems_eq_map (items : List Json) : settledItems items = items.map settled := by
  induction items with
  | nil => rfl
  | cons j rest ih => rw [settledItems, ih, List.map_cons]

/-- Where hidden members are dropped, every name is given once, by what it finds. -/
theorem single?_visible (name : String) (members : List (String × Json)) :
    single? name (visible members) = some (last? name members) := by
  induction members with
  | nil => rfl
  | cons m rest ih =>
      obtain ⟨other, j⟩ := m
      rw [visible, last?_cons]
      by_cases hidden : rest.any fun m => m.1 == other
      · rw [if_pos hidden, ih]
        by_cases same : name = other
        · obtain ⟨m, hm, again⟩ := List.any_eq_true.mp hidden
          have found : last? name rest ≠ none := fun absent =>
            last?_eq_none.mp absent m hm (by rw [same]; simpa using again)
          obtain ⟨k, hk⟩ := Option.ne_none_iff_exists'.mp found
          simp [hk]
        · simp [same]
      · rw [if_neg hidden]
        by_cases same : name = other
        · have alone : last? name rest = none := last?_eq_none.mpr fun m hm again =>
            hidden (List.any_eq_true.mpr ⟨m, hm, by simp [again, same]⟩)
          have gone : ((visible rest).filter fun m => m.1 == name) = [] := by
            rw [single?, alone] at ih
            split at ih
            · assumption
            · cases ih
            · cases ih
          rw [alone, same, single?, List.filter_cons_of_pos (by simp), ← same, gone]
          simp [same]
        · have passed : single? name ((other, j) :: visible rest) =
              single? name (visible rest) := by
            rw [single?, List.filter_cons_of_neg (by simpa using Ne.symm same), ← single?]
          rw [passed, ih, if_neg same, Option.or_none]

theorem get?_settled (name : String) (j : Json) :
    j.settled.get? name = (j.get? name).map settled := by
  cases j with
  | object members =>
      have found := last?_of_single? (single?_visible name (settledMembers members))
      rw [settled, get?, found, settledMembers_eq_map, last?, ← List.map_reverse, get?]
      exact Assoc.lookup_map settled name members.reverse
  | _ => rfl

/-- A value without parts is settled from the first. -/
theorem settled_eq_text {s : String} : j.settled = .text s ↔ j = .text s := by
  cases j <;> simp [settled]

theorem settled_eq_texts {ss : List String} : j.settled = .texts ss ↔ j = .texts ss := by
  have items : ∀ items : List Json, items.map settled = ss.map .text ↔ items = ss.map .text := by
    intro items
    induction items generalizing ss with
    | nil => rw [List.map_nil]
    | cons item rest ih => cases ss <;> simp [ih, settled_eq_text]
  cases j with
  | array list => simp [settled, texts, settledItems_eq_map, items list]
  | _ => simp [settled, texts]

/-! ### Fields -/

/-- The members that are given for some names, each once at most. -/
theorem record?_object {names : List String} {needed : Nat} {fields : Fields} :
    record? names needed (.object members) = some fields ↔
      List.Forall₂ (fun name field => single? name members = some field) names fields := by
  rw [record?]
  induction names generalizing fields with
  | nil => simp [eq_comm]
  | cons name rest ih =>
      simp only [List.mapM_cons, Option.bind_eq_bind, Option.bind_eq_some_iff, ih,
        Option.pure_def, Option.some.injEq]
      constructor
      · rintro ⟨field, given, later, all, rfl⟩
        exact .cons given all
      · intro all
        cases all with
        | cons given all => exact ⟨_, given, _, all, rfl⟩

/-- **A settled object is a record of what its names find.** -/
theorem record?_settled (names : List String) (needed : Nat) (members : List (String × Json)) :
    record? names needed (Json.object members).settled =
      some (names.map fun name => (Json.object members).settled.get? name) := by
  rw [settled, record?_object, List.forall₂_map_right_iff, List.forall₂_same]
  intro name _
  have given := single?_visible name (settledMembers members)
  rw [given, get?, last?_of_single? given]

/-- What a value gives for a field: the member of that name in an object, and the item
in that place in an array. -/
def at? (place : Nat) (name : String) : Json → Option Json
  | .object members => last? name members
  | .array items => items[place]?
  | _ => none

/-- Every field of a record is found under its name or in its place. -/
theorem getElem?_of_record? {names : List String} {needed place : Nat} {name : String}
    {fields : Fields} (h : record? names needed j = some fields)
    (named : names[place]? = some name) : fields[place]? = some (j.at? place name) := by
  cases j with
  | object members =>
      have each := List.forall₂_iff_get.mp (record?_object.mp h)
      obtain ⟨inside, same⟩ := List.getElem?_eq_some_iff.mp named
      have given := each.2 place inside (each.1 ▸ inside)
      rw [List.get_eq_getElem, same] at given
      rw [List.getElem?_eq_getElem (each.1 ▸ inside), at?, last?_of_single? given]
      rfl
  | array items =>
      rw [record?] at h
      split at h
      · rename_i fit
        cases h
        have inside := (List.getElem?_eq_some_iff.mp named).1
        rw [at?]
        by_cases given : place < items.length
        · rw [List.getElem?_append_left (by simpa using given), List.getElem?_map,
            List.getElem?_eq_getElem given, Option.map_some]
        · have past : items.length ≤ place := Nat.le_of_not_lt given
          rw [List.getElem?_append_right (by simpa using past), List.length_map,
            List.getElem?_replicate, if_pos (by omega), List.getElem?_eq_none past]
      · cases h
  | _ => cases h

theorem required_eq_bind {α : Type} (read : Json → Option α) (field : Option Json) :
    required read field = field.bind read := by
  cases field <;> rfl

theorem texts?_eq_some_iff {ss : List String} : j.texts? = some ss ↔ j = .texts ss := by
  have items : ∀ (items : List Json) (ss : List String),
      items.mapM text? = some ss ↔ items = ss.map .text := by
    intro items
    induction items with
    | nil => simp [eq_comm]
    | cons item rest ih =>
        intro ss
        simp only [List.mapM_cons, Option.bind_eq_bind, Option.bind_eq_some_iff, ih,
          Option.pure_def, Option.some.injEq]
        constructor
        · rintro ⟨s, text, later, rfl, rfl⟩
          cases item <;> simp_all [text?]
        · intro whole
          cases ss with
          | nil => simp at whole
          | cons s later =>
              obtain ⟨rfl, rfl⟩ := List.cons.inj whole
              exact ⟨s, rfl, later, rfl, rfl⟩
  cases j with
  | array list => simp [texts?, items?, texts, items list ss]
  | _ => simp [texts?, items?, texts]

theorem text?_eq_some_iff {s : String} : j.text? = some s ↔ j = .text s := by
  cases j <;> simp [text?]

/-! ### Records, whatever reads them -/

/-- What the members of an object give for a name: nothing if none has it, and the value of
the one that has it. For a name that two of them have they give neither. -/
inductive Given (name : String) : List (String × Json) → Option Json → Prop
  | missing {members : List (String × Json)} (others : ∀ m ∈ members, m.1 ≠ name) :
      Given name members none
  | once {before behind : List (String × Json)} {j : Json}
      (alone : ∀ m ∈ before ++ behind, m.1 ≠ name) :
      Given name (before ++ (name, j) :: behind) (some j)

/-- A value gives the fields of a record: an object each by its name, whatever other members
it has, and an array by their places, where only the last ones may be left out. -/
inductive Gives (names : List String) (needed : Nat) : Json → Fields → Prop
  | object {members : List (String × Json)} {fields : Fields}
      (each : List.Forall₂ (fun name field => Given name members field) names fields) :
      Gives names needed (.object members) fields
  | array {items : List Json} {missing : Nat} (enough : needed ≤ items.length)
      (whole : items.length + missing = names.length) :
      Gives names needed (.array items) (items.map some ++ List.replicate missing none)

/-- A field that may be missing or null has a value of some kind otherwise. -/
inductive Optional {α : Type} (kind : Json → α → Prop) : Option Json → Option α → Prop
  | missing : Optional kind none none
  | null : Optional kind (some .null) none
  | value {j : Json} {a : α} (h : kind j a) : Optional kind (some j) (some a)

theorem filter_name_eq_nil :
    (members.filter fun m => m.1 == name) = [] ↔ ∀ m ∈ members, m.1 ≠ name := by
  simp [List.filter_eq_nil_iff]

theorem single?_eq_some_iff {field : Option Json} :
    single? name members = some field ↔ Given name members field := by
  constructor
  · intro h
    unfold single? at h
    split at h
    · rename_i empty
      cases h
      exact .missing (filter_name_eq_nil.mp empty)
    · rename_i m one
      cases h
      obtain ⟨before, behind, rfl, first, same, last⟩ := List.filter_eq_cons_iff.mp one
      have alone : ∀ e ∈ before ++ behind, e.1 ≠ name := by
        intro e he
        rcases List.mem_append.mp he with he | he
        · simpa using first e he
        · exact filter_name_eq_nil.mp last e he
      obtain ⟨other, j⟩ := m
      obtain rfl : other = name := by simpa using same
      exact .once alone
    · cases h
  · intro h
    cases h with
    | missing others => rw [single?, filter_name_eq_nil.mpr others]
    | once alone =>
        rename_i before behind j
        have first := filter_name_eq_nil.mpr fun m hm => alone m (List.mem_append_left _ hm)
        have last := filter_name_eq_nil.mpr fun m hm => alone m (List.mem_append_right _ hm)
        rw [single?, List.filter_append, first, List.filter_cons_of_pos (by simp), last]
        rfl

/-- **The records that are read are the values that give the fields of one.** -/
theorem record?_eq_some_iff {names : List String} {needed : Nat} {fields : Fields} :
    record? names needed j = some fields ↔ Gives names needed j fields := by
  cases j with
  | object members =>
      rw [record?_object]
      simp only [single?_eq_some_iff]
      constructor
      · exact .object
      · intro h
        cases h with
        | object each => exact each
  | array items =>
      rw [record?]
      constructor
      · intro h
        split at h
        · rename_i fit
          cases h
          exact .array fit.1 (Nat.add_sub_cancel' fit.2)
        · cases h
      · intro h
        cases h with
        | array enough whole =>
            rw [if_pos ⟨enough, whole ▸ Nat.le_add_right _ _⟩, ← whole, Nat.add_sub_cancel_left]
  | _ =>
      constructor
      · intro h
        cases h
      · intro h
        cases h

theorem nullable_eq_some_iff {α : Type} {read : Json → Option α} {kind : Json → α → Prop}
    {field : Option Json} {a : Option α}
    (reads : ∀ j, field = some j → ∀ a, read j = some a ↔ kind j a) (never : ∀ a, ¬ kind .null a) :
    nullable read field = some a ↔ Optional kind field a := by
  constructor
  · intro h
    unfold nullable at h
    split at h
    · cases h
      exact .missing
    · cases h
      exact .null
    · rename_i j _
      obtain ⟨b, known, rfl⟩ := Option.map_eq_some_iff.mp h
      exact .value ((reads j rfl b).mp known)
  · intro h
    cases h with
    | missing => rfl
    | null => rfl
    | @value j b h =>
        have known := (reads j rfl b).mpr h
        cases j with
        | null => exact absurd h (never b)
        | _ => exact Option.map_eq_some_iff.mpr ⟨b, known, rfl⟩

end Gatehouse.Json
