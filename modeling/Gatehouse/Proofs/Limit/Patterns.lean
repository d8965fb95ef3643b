import Gatehouse.Limit.Endpoint
import Gatehouse.Proofs.Assoc
import Gatehouse.Proofs.Text.Pieces

/-!
Which pattern decides on an endpoint.

A pattern with a star stands for the paths that begin with what precedes the star. Of two
such beginnings of one path the longer one has the shorter one as its beginning, and two of
the same length are the same text, under which only one limit is found. So the candidate with
the longest beginning is the same in whatever order the patterns are listed.

* `reach?_eq_some_iff`: the patterns that stand for a path.
* `lookup?_eq_some_iff`: the limit of an endpoint, by what is found under single patterns.
* `longest_pattern_decides` has both for limits that were set in any order.
-/

namespace Gatehouse.Limit.Endpoints

/-- The pattern of all endpoints of a method whose path begins with a text. -/
def beginning (method front : String) : String :=
  exactly method (front ++ "*")

/-- The limit that was last set for a pattern. -/
def lastSet? (sets : List (String × Nat)) (pattern : String) : Option Nat :=
  sets.reverse.lookup pattern

/-- Of the beginnings of a path that stand before the star of a pattern, this is the longest. -/
structure IsLongest (found? : String → Option Nat) (method path front : String) : Prop where
  begins : front.toList <+: path.toList
  there : found? (beginning method front) ≠ none
  longest : ∀ other : String, other.toList <+: path.toList →
    found? (beginning method other) ≠ none → other.length ≤ front.length

/-- What is found under patterns gives a limit to an endpoint: under the pattern of exactly the
endpoint, or else under the one with the longest beginning. -/
def Decides (found? : String → Option Nat) (method path : String) (limit : Nat) : Prop :=
  found? (exactly method path) = some limit ∨
    found? (exactly method path) = none ∧
      ∃ front, IsLongest found? method path front ∧ found? (beginning method front) = some limit

variable {e : Endpoints} {method path : String} {limit : Nat}

/-- Only what is found under the patterns of the method counts. -/
theorem Decides.congr {found? found?' : String → Option Nat}
    (agree : ∀ rest, found?' (exactly method rest) = found? (exactly method rest))
    (h : Decides found? method path limit) : Decides found?' method path limit := by
  have atBeginning : ∀ front, found?' (beginning method front) = found? (beginning method front) :=
    fun front => agree (front ++ "*")
  rcases h with own | ⟨unset, front, ⟨begins, there, longest⟩, found⟩
  · exact .inl ((agree path).trans own)
  · refine .inr ⟨(agree path).trans unset, front, ⟨begins, ?_, ?_⟩, (atBeginning front).trans found⟩
    · rwa [atBeginning]
    · intro other hother
      rw [atBeginning]
      exact longest other hother

/-! ### What is set -/

theorem ofList_append (sets : List (String × Nat)) (pattern : String) (limit : Nat) :
    ofList (sets ++ [(pattern, limit)]) = (ofList sets).set pattern limit :=
  List.foldl_append

theorem nodup_keys_ofList (sets : List (String × Nat)) :
    (Assoc.keys (ofList sets).limits).Nodup := by
  induction sets using List.reverseRecOn with
  | nil => exact List.nodup_nil
  | append_singleton sets p ih =>
      rw [ofList_append]
      exact Assoc.nodup_keys_put ih p.1 p.2

/-- Under a pattern stands the limit that was last set for it. -/
theorem lookup_ofList (sets : List (String × Nat)) (pattern : String) :
    (ofList sets).limits.lookup pattern = lastSet? sets pattern := by
  induction sets using List.reverseRecOn with
  | nil => rfl
  | append_singleton sets p ih =>
      have last : lastSet? (sets ++ [p]) pattern =
          if pattern == p.1 then some p.2 else lastSet? sets pattern := by
        rw [lastSet?, List.reverse_append, List.reverse_singleton, List.singleton_append,
          List.lookup_cons, lastSet?]
        cases pattern == p.1 <;> rfl
      rw [ofList_append, last, ← ih]
      exact Assoc.lookup_put p.1 pattern p.2 (ofList sets).limits

/-! ### The patterns that stand for a path -/

/-- A pattern stands for a path by its method, up to the first colon, and by a beginning of the
path, up to the last character, a star. -/
theorem reach?_eq_some_iff (plain : ':' ∉ method.toList) {pattern : String} {n : Nat} :
    reach? pattern method path = some n ↔
      ∃ front : String, pattern = beginning method front ∧ front.toList <+: path.toList ∧
        front.length = n := by
  have written : ∀ front : String, (beginning method front).toList =
      method.toList ++ ':' :: (front.toList ++ ['*']) := by
    intro front
    simp [beginning, exactly, String.toList_append]
  unfold reach?
  simp only [Option.bind_eq_bind, Option.bind_eq_some_iff, Prod.exists]
  constructor
  · rintro ⟨m, p, cut, h⟩
    split at h
    · rename_i fits
      obtain ⟨rfl, star, begins⟩ := fits
      obtain ⟨whole, -⟩ := Text.cutChars_eq_some_iff.mp cut
      have ends : p = p.dropLast ++ ['*'] := (List.dropLast_append_getLast? '*' star).symm
      refine ⟨String.ofList p.dropLast, ?_, ?_, ?_⟩
      · rw [← String.toList_inj, written, String.toList_ofList, ← ends, whole]
      · rw [String.toList_ofList]
        exact List.isPrefixOf_iff_prefix.mp begins
      · rw [String.length_ofList]
        exact Option.some.inj h
    · cases h
  · rintro ⟨front, rfl, begins, rfl⟩
    refine ⟨method.toList, front.toList ++ ['*'], ?_, ?_⟩
    · rw [written, Text.cutChars_append plain]
    · rw [List.dropLast_concat, List.getLast?_concat,
        if_pos ⟨rfl, rfl, List.isPrefixOf_iff_prefix.mpr begins⟩, String.length_toList]

theorem mem_candidates_iff (plain : ':' ∉ method.toList) (once : (Assoc.keys e.limits).Nodup)
    {n : Nat} : (n, limit) ∈ e.candidates method path ↔
      ∃ front : String, front.toList <+: path.toList ∧ front.length = n ∧
        e.limits.lookup (beginning method front) = some limit := by
  simp only [candidates, List.mem_filterMap, Option.map_eq_some_iff, reach?_eq_some_iff plain,
    Prod.exists, Prod.mk.injEq]
  constructor
  · rintro ⟨pattern, own, mem, reached, ⟨front, rfl, begins, rfl⟩, rfl, rfl⟩
    exact ⟨front, begins, rfl, (Assoc.mem_iff_lookup once).mp mem⟩
  · rintro ⟨front, begins, rfl, found⟩
    exact ⟨_, limit, (Assoc.mem_iff_lookup once).mpr found, _, ⟨front, rfl, begins, rfl⟩, rfl, rfl⟩

/-! ### The longest beginning -/

theorem longest?_eq_none_iff {cs : List (Nat × Nat)} : longest? cs = none ↔ cs = [] := by
  cases cs with
  | nil => simp [longest?]
  | cons c rest =>
      simp only [longest?, reduceCtorEq, iff_false]
      split
      · simp
      · split <;> simp

/-- The candidate that is chosen is one of them, and none has a longer beginning. -/
theorem longest?_spec {cs : List (Nat × Nat)} {best : Nat × Nat}
    (chosen : longest? cs = some best) :
    best ∈ cs ∧ ∀ c ∈ cs, c.1 ≤ best.1 := by
  induction cs generalizing best with
  | nil => cases chosen
  | cons c rest ih =>
      rw [longest?] at chosen
      split at chosen
      · rename_i unchosen
        cases chosen
        rw [longest?_eq_none_iff.mp unchosen]
        simp
      · rename_i later found
        obtain ⟨mem, most⟩ := ih found
        split at chosen
        · rename_i longer
          cases chosen
          refine ⟨List.mem_cons_self, fun d hd => ?_⟩
          rcases List.mem_cons.mp hd with rfl | hd
          · exact Nat.le_refl _
          · exact Nat.le_trans (most d hd) (Nat.le_of_lt longer)
        · rename_i short
          cases chosen
          refine ⟨List.mem_cons_of_mem _ mem, fun d hd => ?_⟩
          rcases List.mem_cons.mp hd with rfl | hd
          · exact Nat.le_of_not_lt short
          · exact most d hd

/-- Beginnings of one text that are equally long are the same. -/
theorem eq_of_begins {front front' : String} (begins : front.toList <+: path.toList)
    (begins' : front'.toList <+: path.toList) (length : front.length = front'.length) :
    front = front' := by
  have within : front.toList <+: front'.toList :=
    List.prefix_of_prefix_length_le begins begins' (Nat.le_of_eq length)
  exact String.toList_inj.mp (within.eq_of_length length)

/-- **The limit of an endpoint**, by what is found under single patterns. -/
theorem lookup?_eq_some_iff (plain : ':' ∉ method.toList) (once : (Assoc.keys e.limits).Nodup) :
    e.lookup? method path = some limit ↔
      Decides (fun pattern => e.limits.lookup pattern) method path limit := by
  unfold lookup? Decides
  split
  · rename_i own found
    simp [found]
  · rename_i unset
    simp only [unset, reduceCtorEq, true_and, false_or]
    constructor
    · intro h
      obtain ⟨⟨n, own⟩, chosen, rfl⟩ := Option.map_eq_some_iff.mp h
      obtain ⟨mem, most⟩ := longest?_spec chosen
      obtain ⟨front, begins, rfl, found⟩ := (mem_candidates_iff plain once).mp mem
      refine ⟨front, ⟨begins, by simp [found], fun other hother there => ?_⟩, found⟩
      obtain ⟨l, hl⟩ := Option.ne_none_iff_exists'.mp there
      exact most (other.length, l) ((mem_candidates_iff plain once).mpr ⟨other, hother, rfl, hl⟩)
    · rintro ⟨front, longest, found⟩
      have mem := (mem_candidates_iff plain once).mpr ⟨front, longest.begins, rfl, found⟩
      cases chosen : longest? (e.candidates method path) with
      | none => rw [longest?_eq_none_iff.mp chosen] at mem; cases mem
      | some best =>
          obtain ⟨bestMem, most⟩ := longest?_spec chosen
          obtain ⟨front', begins', length', found'⟩ := (mem_candidates_iff plain once).mp bestMem
          have atLeast : front.length ≤ best.1 := most _ mem
          have atMost : front'.length ≤ front.length :=
            longest.longest front' begins' (by simp [found'])
          obtain rfl := eq_of_begins longest.begins begins' (by omega)
          rw [found] at found'
          exact found'.symm

/-- No pattern stands for the endpoint: neither its own nor one with a beginning of its path. -/
theorem lookup?_eq_none_iff (plain : ':' ∉ method.toList) (once : (Assoc.keys e.limits).Nodup) :
    e.lookup? method path = none ↔
      e.limits.lookup (exactly method path) = none ∧
        ∀ front : String, front.toList <+: path.toList →
          e.limits.lookup (beginning method front) = none := by
  unfold lookup?
  split
  · rename_i own found
    simp [found]
  · rename_i unset
    simp only [unset, true_and, Option.map_eq_none_iff, longest?_eq_none_iff]
    constructor
    · intro empty front begins
      by_contra there
      obtain ⟨own, found⟩ := Option.ne_none_iff_exists'.mp there
      have mem := (mem_candidates_iff plain once).mpr ⟨front, begins, rfl, found⟩
      rw [empty] at mem
      cases mem
    · intro absent
      refine List.eq_nil_iff_forall_not_mem.mpr fun ⟨n, own⟩ mem => ?_
      obtain ⟨front, begins, -, found⟩ := (mem_candidates_iff plain once).mp mem
      rw [absent front begins] at found
      cases found

/-- **The pattern of exactly the endpoint decides, and else the one with the longest beginning**,
by the limit that was last set for it, in whatever order the patterns are listed. Nothing else
counts: limits that agree on the patterns of the method give the endpoint the same limit. -/
theorem longest_pattern_decides (plain : ':' ∉ method.toList) (path : String)
    {sets order : List (String × Nat)} (listed : order.Perm (ofList sets).limits) :
    (∀ limit, (Endpoints.mk order).lookup? method path = some limit ↔
        Decides (lastSet? sets) method path limit) ∧
      ((Endpoints.mk order).lookup? method path = none ↔
        lastSet? sets (exactly method path) = none ∧
          ∀ front : String, front.toList <+: path.toList →
            lastSet? sets (beginning method front) = none) ∧
      ∀ sets' order', order'.Perm (ofList sets').limits →
        (∀ rest, lastSet? sets' (exactly method rest) = lastSet? sets (exactly method rest)) →
        (Endpoints.mk order').lookup? method path = (Endpoints.mk order).lookup? method path := by
  have found : ∀ {sets order : List (String × Nat)}, order.Perm (ofList sets).limits →
      (Assoc.keys order).Nodup ∧ (fun pattern => order.lookup pattern) = lastSet? sets := by
    intro sets order listed
    have once : (Assoc.keys order).Nodup :=
      (listed.map Prod.fst).nodup_iff.mpr (nodup_keys_ofList sets)
    refine ⟨once, funext fun pattern => ?_⟩
    rw [← lookup_ofList, Assoc.lookup_perm once listed]
  have decides : ∀ {sets order : List (String × Nat)}, order.Perm (ofList sets).limits →
      ∀ limit, (Endpoints.mk order).lookup? method path = some limit ↔
        Decides (lastSet? sets) method path limit := by
    intro sets order listed limit
    obtain ⟨once, same⟩ := found listed
    rw [← same]
    exact lookup?_eq_some_iff plain once
  refine ⟨decides listed, ?_, fun sets' order' listed' agree => Option.ext fun limit => ?_⟩
  · obtain ⟨once, same⟩ := found listed
    rw [← same]
    exact lookup?_eq_none_iff plain once
  · rw [decides listed limit, decides listed' limit]
    exact ⟨Decides.congr fun rest => (agree rest).symm, Decides.congr agree⟩

/-- Limits with nested beginnings, of which one has a star in it, for two methods and for none,
and with one that is set again. -/
def overlapping : List (String × Nat) :=
  [("GET:/a*", 5), ("GET:/a/*b*", 7), ("/a/*", 2), ("PUT:/a/*bc", 9), ("GET:*", 1), ("GET:/a*", 6)]

theorem inner_star_is_text :
    ':' ∉ "GET".toList ∧ (ofList overlapping).limits.reverse.Perm (ofList overlapping).limits ∧
      Decides (lastSet? overlapping) "GET" "/a/*bc" 7 ∧
      Decides (lastSet? overlapping) "GET" "/a/b" 6 ∧
      ∀ front : String, front.toList <+: "/a/x".toList →
        lastSet? overlapping (beginning "PUT" front) = none := by
  have plain : ':' ∉ "GET".toList := by decide
  have listed := (ofList overlapping).limits.reverse_perm
  obtain ⟨nested, -⟩ := longest_pattern_decides plain "/a/*bc" listed
  obtain ⟨again, -⟩ := longest_pattern_decides plain "/a/b" listed
  have plain' : ':' ∉ "PUT".toList := by decide
  obtain ⟨-, other, -⟩ := longest_pattern_decides plain' "/a/x" listed
  exact ⟨plain, listed, (nested 7).mp (by decide), (again 6).mp (by decide),
    (other.mp (by decide)).2⟩

end Gatehouse.Limit.Endpoints
