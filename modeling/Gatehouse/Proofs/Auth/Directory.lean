import Gatehouse.Auth.Directory
import Gatehouse.Proofs.Assoc
import Mathlib.Data.Finset.Card

/-!
Names and the ids of their users.

A directory is asked for one name after the other, and gives the next id to each that is
new. No id is ever taken back, and none is given to a second name, as long as those that
are given out differ (`Fresh`).

* `Orderly` is kept by every query (`Orderly.ask`, `Orderly.after`): the names stand once,
  and their ids are the first that there are.
* `mem_told` finds a reply in the state that the queries before it have left.
* `size_after_empty` counts the names that have an id, and `Orderly.settles` says how the
  queries of a run are answered.
-/

namespace Gatehouse.Auth

namespace Directory

/-! ### Runs of queries -/

/-- What a resolver is asked. -/
structure Query where
  name : String
  username : String
  email : String
  deriving DecidableEq, Repr

/-- The reply to a query, and the directory after it. -/
def ask (d : Directory) (q : Query) : Reply AuthFault Uuid × Directory :=
  resolver q.name q.username q.email d

/-- The directory after a run of queries. -/
def after : Directory → List Query → Directory
  | d, [] => d
  | d, q :: rest => after (d.ask q).2 rest

/-- The queries of a run, each with its reply. -/
def told : Directory → List Query → List (Query × Reply AuthFault Uuid)
  | _, [] => []
  | d, q :: rest => (q, (d.ask q).1) :: told (d.ask q).2 rest

/-- The names that have an id. -/
def names (d : Directory) : List String :=
  Assoc.keys d.ids

/-- The id of a name that has one. -/
def id? (d : Directory) (name : String) : Option Uuid :=
  d.ids.lookup name

/-- The next id goes to a name. -/
def enroll (d : Directory) (name : String) : Directory :=
  { d with ids := (name, d.mint d.size) :: d.ids }

/-- The first `n` ids to be given out differ, and none is nil. An id has 128 bits, so this
holds of some `n` only, whatever gives them out. -/
structure Fresh (mint : Nat → Uuid) (n : Nat) : Prop where
  apart : ∀ i < n, ∀ j < n, mint i = mint j → i = j
  filled : ∀ i < n, mint i ≠ Uuid.nil

/-- The names stand once, and their ids are the first that there are, the last one in
front. -/
structure Orderly (d : Directory) : Prop where
  once : d.names.Nodup
  issued : d.ids.map Prod.snd = ((List.range d.size).map d.mint).reverse

/-- The second directory gives the same ids as the first, and has kept those that were given
out. -/
structure Keeps (d d' : Directory) : Prop where
  mint : d'.mint = d.mint
  ids : ∀ name id, d.id? name = some id → d'.id? name = some id

/-- How the queries of a run are answered: those without a name in vain, all others by an id,
which is the same for the same name only. -/
structure Settles (told : List (Query × Reply AuthFault Uuid)) : Prop where
  nameless : ∀ q reply, (q, reply) ∈ told → q.name = "" →
    reply = .failed (.unresolvable .emptyName)
  named : ∀ q reply, (q, reply) ∈ told → q.name ≠ "" → ∃ id, reply = .ready id ∧ id ≠ Uuid.nil
  apart : ∀ q id q' id', (q, .ready id) ∈ told → (q', .ready id') ∈ told →
    (id = id' ↔ q.name = q'.name)

variable {d d' : Directory} {q : Query} {queries : List Query} {name : String} {id : Uuid}
  {reply : Reply AuthFault Uuid}

/-! ### One query -/

theorem ask_of_nameless (nameless : q.name = "") :
    d.ask q = (.failed (.unresolvable .emptyName), d) := by
  simp [ask, resolver, resolve, nameless, atOnce]

theorem ask_of_known (named : q.name ≠ "") (known : d.id? q.name = some id) :
    d.ask q = (.ready id, d) := by
  have found : d.ids.lookup q.name = some id := known
  simp [ask, resolver, resolve, provision, named, found, atOnce]

theorem ask_of_new (named : q.name ≠ "") (new : d.id? q.name = none) :
    d.ask q = (.ready (d.mint d.size), d.enroll q.name) := by
  have missing : d.ids.lookup q.name = none := new
  simp [ask, resolver, resolve, provision, named, missing, atOnce, enroll]

theorem id?_enroll (d : Directory) (name other : String) :
    (d.enroll name).id? other = if other = name then some (d.mint d.size) else d.id? other := by
  by_cases same : other = name
  · simp [id?, enroll, same]
  · rw [if_neg same]
    exact Assoc.lookup_cons_ne same _ _

/-- A query leaves the directory as it is, or gives the next id to its name, which is new
then. -/
theorem ask_cases (d : Directory) (q : Query) :
    (d.ask q).2 = d ∧ (q.name = "" ∨ q.name ∈ d.names) ∨
      (d.ask q).2 = d.enroll q.name ∧ q.name ≠ "" ∧ d.id? q.name = none := by
  by_cases nameless : q.name = ""
  · exact .inl ⟨by rw [ask_of_nameless nameless], .inl nameless⟩
  · cases found : d.id? q.name with
    | some id =>
        have there : q.name ∈ d.names := Assoc.mem_keys.mpr (Option.isSome_of_eq_some found)
        exact .inl ⟨by rw [ask_of_known nameless found], .inr there⟩
    | none => exact .inr ⟨by rw [ask_of_new nameless found], nameless, rfl⟩

/-- An id that is replied is that of the name from then on. -/
theorem id?_of_ready (ready : (d.ask q).1 = .ready id) : (d.ask q).2.id? q.name = some id := by
  by_cases nameless : q.name = ""
  · rw [ask_of_nameless nameless] at ready
    cases ready
  · cases found : d.id? q.name with
    | some old =>
        rw [ask_of_known nameless found] at ready ⊢
        cases ready
        exact found
    | none =>
        rw [ask_of_new nameless found] at ready ⊢
        cases ready
        rw [id?_enroll, if_pos rfl]

theorem exists_ready (named : q.name ≠ "") : ∃ id, (d.ask q).1 = .ready id := by
  cases found : d.id? q.name with
  | some id => exact ⟨id, by rw [ask_of_known named found]⟩
  | none => exact ⟨d.mint d.size, by rw [ask_of_new named found]⟩

/-! ### What a query keeps -/

theorem Keeps.refl (d : Directory) : Keeps d d :=
  ⟨rfl, fun _ _ h => h⟩

theorem Keeps.trans {d'' : Directory} (h : Keeps d d') (h' : Keeps d' d'') : Keeps d d'' :=
  ⟨h'.mint.trans h.mint, fun name id known => h'.ids name id (h.ids name id known)⟩

theorem keeps_enroll (new : d.id? name = none) : Keeps d (d.enroll name) where
  mint := rfl
  ids other id known := by
    have differs : other ≠ name := by
      rintro rfl
      exact absurd (new.symm.trans known) (by simp)
    rw [id?_enroll, if_neg differs, known]

theorem keeps_ask (d : Directory) (q : Query) : Keeps d (d.ask q).2 := by
  rcases d.ask_cases q with ⟨same, -⟩ | ⟨enrolled, -, new⟩
  · rw [same]
    exact Keeps.refl d
  · rw [enrolled]
    exact keeps_enroll new

theorem keeps_after (d : Directory) (queries : List Query) : Keeps d (d.after queries) := by
  induction queries generalizing d with
  | nil => exact Keeps.refl d
  | cons q rest ih => exact (d.keeps_ask q).trans (ih (d.ask q).2)

theorem Orderly.enroll (h : d.Orderly) (new : d.id? name = none) : (d.enroll name).Orderly where
  once := List.nodup_cons.mpr ⟨Assoc.lookup_eq_none.mp new, h.once⟩
  issued := by
    have size : (d.enroll name).size = d.size + 1 := rfl
    rw [size, List.range_succ, List.map_append, List.reverse_append]
    exact congrArg (d.mint d.size :: ·) h.issued

theorem Orderly.ask (h : d.Orderly) (q : Query) : (d.ask q).2.Orderly := by
  rcases d.ask_cases q with ⟨same, -⟩ | ⟨enrolled, -, new⟩
  · rwa [same]
  · rw [enrolled]
    exact h.enroll new

theorem Orderly.after (h : d.Orderly) (queries : List Query) : (d.after queries).Orderly := by
  induction queries generalizing d with
  | nil => exact h
  | cons q rest ih => exact ih (h.ask q)

theorem orderly_empty (mint : Nat → Uuid) : (empty mint).Orderly :=
  ⟨List.nodup_nil, rfl⟩

/-! ### Names and ids in order -/

/-- An id that a name has was given out. -/
theorem Orderly.exists_issued (h : d.Orderly) (known : d.id? name = some id) :
    ∃ n < d.size, d.mint n = id := by
  have entry : (name, id) ∈ d.ids := (Assoc.mem_iff_lookup h.once).mpr known
  have given : id ∈ d.ids.map Prod.snd := List.mem_map_of_mem entry
  rw [h.issued, List.mem_reverse, List.mem_map] at given
  obtain ⟨n, before, rfl⟩ := given
  exact ⟨n, List.mem_range.mp before, rfl⟩

theorem Orderly.ne_nil (h : d.Orderly) (fresh : Fresh d.mint d.size)
    (known : d.id? name = some id) : id ≠ Uuid.nil := by
  obtain ⟨n, before, rfl⟩ := h.exists_issued known
  exact fresh.filled n before

/-- No two names have one id. -/
theorem Orderly.name_eq (h : d.Orderly) (fresh : Fresh d.mint d.size) {other : String}
    (known : d.id? name = some id) (known' : d.id? other = some id) : name = other := by
  have differ : (d.ids.map Prod.snd).Nodup := by
    rw [h.issued, List.nodup_reverse]
    refine List.nodup_range.map_on fun i hi j hj same => ?_
    exact fresh.apart i (List.mem_range.mp hi) j (List.mem_range.mp hj) same
  have entry : (name, id) ∈ d.ids := (Assoc.mem_iff_lookup h.once).mpr known
  have entry' : (other, id) ∈ d.ids := (Assoc.mem_iff_lookup h.once).mpr known'
  exact congrArg Prod.fst (List.inj_on_of_nodup_map differ entry entry' rfl)

/-- A query brings its own name in, if it has one. -/
theorem mem_names_ask :
    name ∈ (d.ask q).2.names ↔ name ∈ d.names ∨ name ≠ "" ∧ name = q.name := by
  rcases d.ask_cases q with ⟨same, nameless | there⟩ | ⟨enrolled, named, -⟩
  · rw [same]
    grind
  · rw [same]
    grind
  · have names : (d.enroll q.name).names = q.name :: d.names := rfl
    rw [enrolled, names, List.mem_cons]
    grind

theorem mem_names_after :
    name ∈ (d.after queries).names ↔ name ∈ d.names ∨ name ≠ "" ∧ ∃ q ∈ queries, name = q.name := by
  induction queries generalizing d with
  | nil => simp [after]
  | cons q rest ih =>
      rw [after, ih, mem_names_ask]
      simp only [List.mem_cons, exists_eq_or_imp]
      tauto

/-- A directory is as large as there are names that it was asked for. -/
theorem size_after_empty (mint : Nat → Uuid) (queries : List Query) :
    ((empty mint).after queries).size = ((queries.map Query.name).toFinset.erase "").card := by
  have once := ((orderly_empty mint).after queries).once
  have asked : ((empty mint).after queries).names.toFinset =
      (queries.map Query.name).toFinset.erase "" := by
    ext name
    have unnamed : name ∉ (empty mint).names := List.not_mem_nil
    rw [List.mem_toFinset, mem_names_after, Finset.mem_erase, List.mem_toFinset, List.mem_map]
    simp only [unnamed, false_or, eq_comm]
  rw [← asked, List.toFinset_card_of_nodup once, names, Assoc.keys, List.length_map, size]

/-! ### Replies of a run -/

theorem after_append (d : Directory) (first second : List Query) :
    d.after (first ++ second) = (d.after first).after second := by
  induction first generalizing d with
  | nil => rfl
  | cons q rest ih => exact ih (d.ask q).2

theorem told_append (d : Directory) (first second : List Query) :
    d.told (first ++ second) = d.told first ++ (d.after first).told second := by
  induction first generalizing d with
  | nil => rfl
  | cons q rest ih => exact congrArg ((q, (d.ask q).1) :: ·) (ih (d.ask q).2)

/-- A reply is given in the state that the queries before it have left. -/
theorem mem_told (h : (q, reply) ∈ d.told queries) :
    ∃ before behind, queries = before ++ q :: behind ∧ ((d.after before).ask q).1 = reply := by
  induction queries generalizing d with
  | nil => exact absurd h List.not_mem_nil
  | cons own rest ih =>
      rcases List.mem_cons.mp h with first | later
      · cases first
        exact ⟨[], rest, rfl, rfl⟩
      · obtain ⟨before, behind, rfl, replied⟩ := ih later
        exact ⟨own :: before, behind, rfl, replied⟩

/-- An id that was replied is still that of its name when the run is over. -/
theorem id?_of_told (h : (q, .ready id) ∈ d.told queries) :
    (d.after queries).id? q.name = some id := by
  obtain ⟨before, behind, rfl, replied⟩ := mem_told h
  rw [after_append]
  exact (keeps_after _ behind).ids _ _ (id?_of_ready replied)

/-- A directory in good order settles every run, if the ids are fresh that it has given out
in the end. -/
theorem Orderly.settles (h : d.Orderly) (fresh : Fresh d.mint (d.after queries).size) :
    Settles (d.told queries) := by
  have last := h.after queries
  rw [← (d.keeps_after queries).mint] at fresh
  constructor
  case nameless =>
    intro q reply mem nameless
    obtain ⟨before, behind, -, rfl⟩ := mem_told mem
    rw [ask_of_nameless nameless]
  case named =>
    intro q reply mem named
    obtain ⟨before, behind, -, replied⟩ := mem_told mem
    obtain ⟨id, ready⟩ := exists_ready (d := d.after before) named
    obtain rfl : .ready id = reply := ready.symm.trans replied
    exact ⟨id, rfl, last.ne_nil fresh (id?_of_told mem)⟩
  case apart =>
    intro q id q' id' mem mem'
    have known := id?_of_told mem
    have known' := id?_of_told mem'
    constructor
    · rintro rfl
      exact last.name_eq fresh known known'
    · intro same
      rw [same] at known
      exact Option.some.inj (known.symm.trans known')

end Directory

end Gatehouse.Auth
