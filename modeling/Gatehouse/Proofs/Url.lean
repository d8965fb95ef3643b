import Gatehouse.Proofs.Checks
import Gatehouse.Proofs.Text.Decimal
import Gatehouse.Proofs.Text.Form
import Gatehouse.Url.Reader

/-!
Addresses as they are written.

A `?` begins the query of an address, and a `#` its fragment. A reader cuts both off
before it looks at anything else, and what it then reads is kept only if it has no
such mark, or with the mark encoded. So the query of an address that was read is found
in the text that the address is written as, and so are the pairs that are added to it.

* `Punycode.mem_encode`: the characters of a label that is encoded.
* `lacks_of_read`: no mark stands before the query of an address that was read.
* `parts_write`: the parts of such an address are found in its text.
* `addQuery_spec`: pairs that are added to it stand behind its own, and nothing else changes.
* `decode_addQuery`: they are found in its text.
-/

namespace Gatehouse

open Text

/-- The marks that begin the query and the fragment of an address. -/
def Url.marks : List Char := ['?', '#']

variable {mark : Char}

namespace Text.Punycode

section Digits

variable {P : Char → Prop} (digits : ∀ d < 36, P (symbol d))

include digits

theorem of_mem_distanceDigits {bias place distance : Nat} :
    ∀ c ∈ distanceDigits bias place distance, P c := by
  have bound : ∀ place, threshold bias place ≤ 26 := fun place => Nat.min_le_left _ _
  fun_induction distanceDigits bias place distance with
  | case1 place distance t last =>
      intro c mem
      rw [List.mem_singleton.mp mem]
      exact digits _ (Nat.lt_of_lt_of_le last (Nat.le_trans (bound place) (by decide)))
  | case2 place distance t more ih =>
      have high : t ≤ 26 := bound place
      intro c mem
      rcases List.mem_cons.mp mem with rfl | later
      · have rest := Nat.mod_lt (distance - t) (show 36 - t > 0 by omega)
        exact digits _ (by omega)
      · exact ih c later

theorem of_mem_pass {basic point : Nat} {w : Writing} (before : ∀ c ∈ w.out, P c) (c : Char) :
    ∀ d ∈ (Writing.pass basic point w c).out, P d := by
  intro d mem
  unfold Writing.pass at mem
  split at mem
  · exact before d mem
  · split at mem
    · exact (List.mem_append.mp mem).elim (before d) (of_mem_distanceDigits digits d)
    · exact before d mem

theorem of_mem_insertAll {label : List Char} {basic : Nat} (points : List Nat) (reached : Nat)
    {w : Writing} (before : ∀ c ∈ w.out, P c) :
    ∀ c ∈ (Writing.insertAll label basic points reached w).out, P c := by
  have passes : ∀ (point : Nat) (label : List Char) (w : Writing), (∀ c ∈ w.out, P c) →
      ∀ c ∈ (label.foldl (Writing.pass basic point) w).out, P c := by
    intro point label
    induction label with
    | nil => exact fun w before => before
    | cons c rest ih => exact fun w before => ih _ (of_mem_pass digits before c)
  induction points generalizing reached w with
  | nil => exact before
  | cons point later ih => exact ih _ (passes point label _ before)

end Digits

/-- What is encoded is written with the ASCII characters of the label, hyphens and digits. -/
theorem mem_encode {c : Char} {label : List Char} (mem : c ∈ encode label) :
    c ∈ label ∨ c = '-' ∨ ∃ d < 36, c = symbol d := by
  refine of_mem_insertAll (P := fun c => c ∈ label ∨ c = '-' ∨ ∃ d < 36, c = symbol d)
    (fun d small => .inr (.inr ⟨d, small, rfl⟩)) _ _ ?_ c mem
  intro c front
  simp only at front
  split at front
  · cases front
  · rcases List.mem_append.mp front with basic | hyphen
    · exact .inl (List.mem_filter.mp basic).1
    · exact .inr (.inl (List.mem_singleton.mp hyphen))

end Text.Punycode

namespace Url

/-! ### Encoded parts -/

/-- What holds of both marks holds of each. -/
@[elab_as_elim]
theorem of_marks {P : Char → Prop} {mark : Char} (h : mark ∈ marks) (both : P '?' ∧ P '#') :
    P mark := by
  rcases List.mem_cons.mp h with rfl | h
  · exact both.1
  · rw [List.mem_singleton.mp h]
    exact both.2

theorem ascii_of_marks (h : mark ∈ marks) : mark.toNat < 128 :=
  of_marks h (by decide)

theorem notMem_escape (h : mark ∈ marks) (b : UInt8) : mark ∉ Percent.escape b := by
  have both : ∀ b, '?' ∉ Percent.escape b ∧ '#' ∉ Percent.escape b := by
    refine Bytes.forall_byte (fun b => '?' ∉ Percent.escape b ∧ '#' ∉ Percent.escape b) ?_
    decide +kernel
  exact of_marks h (both b)

/-- What is reserved is not in an encoded text, and neither is what was not there before. -/
theorem notMem_encode (h : mark ∈ marks) {reserved : String} {cs : List Char}
    (gone : mark ∈ reserved.toList ∨ mark ∉ cs) : mark ∉ (encode reserved cs).toList := by
  have whole : Char.ofUInt8 mark.toUInt8 = mark := of_marks h (by decide)
  refine Percent.notMem_encode (ascii_of_marks h) (notMem_escape h) (gone.imp ?_ ?_)
  · intro kept
    rw [keeps, whole, List.contains_iff_mem.mpr kept, Bool.not_true, Bool.and_false]
  · intro never
    rwa [String.toList_ofList]

/-- The reserved characters of a segment and of credentials have both marks among them. -/
theorem mem_reserved (h : mark ∈ marks) :
    mark ∈ pathReserved.toList ∧ mark ∈ credentialReserved.toList :=
  of_marks h (by decide)

/-! ### Hosts -/

theorem notMem_decimal (h : mark ∈ marks) (n : Nat) : mark ∉ (Decimal.ofNat n).toList := by
  intro mem
  have other : mark.isDigit = false := of_marks h (by decide)
  cases other.symm.trans (Decimal.isDigit_of_mem_ofNat mem)

theorem notMem_ipv4 (h : mark ∈ marks) (a : Ipv4) : mark ∉ a.write.toList := by
  intro mem
  rw [Ipv4.write, String.toList_intercalate] at mem
  rcases mem_intercalate mem with dot | ⟨part, written, mem⟩
  · exact absurd dot (of_marks h (by decide))
  · simp only [List.map_map, List.mem_map] at written
    obtain ⟨i, -, rfl⟩ := written
    exact notMem_decimal h _ mem

theorem notMem_hex (h : mark ∈ marks) (n : Nat) : mark ∉ (Ipv6.hex n).toList := by
  have digit : ∀ d < 16, mark ≠ Nat.digitChar d := of_marks h (by decide)
  rw [Ipv6.hex, String.toList_ofList]
  induction n using Nat.strongRecOn with
  | ind n ih =>
      rw [Nat.toDigits_eq_if (by decide)]
      split
      · rename_i small
        exact fun mem => digit n small (List.mem_singleton.mp mem)
      · rename_i large
        intro mem
        rcases List.mem_append.mp mem with front | last
        · exact ih (n / 16) (by omega) front
        · exact digit _ (Nat.mod_lt n (by decide)) (List.mem_singleton.mp last)

theorem notMem_ipv6 (h : mark ∈ marks) (a : Ipv6) : mark ∉ a.write.toList := by
  have groups : ∀ groups, mark ∉ (Ipv6.writeGroups groups).toList := by
    intro groups mem
    rw [Ipv6.writeGroups, String.toList_intercalate] at mem
    rcases mem_intercalate mem with colon | ⟨part, written, mem⟩
    · exact absurd colon (of_marks h (by decide))
    · simp only [List.map_map, List.mem_map] at written
      obtain ⟨n, -, rfl⟩ := written
      exact notMem_hex h n mem
  rw [Ipv6.write]
  split
  · exact groups _
  · have gap : mark ∉ "::".toList := of_marks h (by decide)
    rw [String.toList_append, String.toList_append, List.mem_append, List.mem_append, not_or,
      not_or]
    exact ⟨⟨groups _, gap⟩, groups _⟩

/-- A mark that no domain may hold is not in its form in ASCII. -/
theorem notMem_labelToAscii? (h : mark ∈ marks) {label out : List Char} (fits : mark ∉ label)
    (ascii : Domain.labelToAscii? label = some out) : mark ∉ out := by
  unfold Domain.labelToAscii? at ascii
  split at ascii
  · split at ascii
    · cases ascii
    · cases ascii
      exact fits
  · cases ascii
    have digit : ∀ d < 36, Punycode.symbol d ∉ marks := by decide
    intro mem
    rcases List.mem_append.mp mem with front | mem
    · exact absurd front (of_marks h (by decide))
    · rcases Punycode.mem_encode mem with here | rfl | ⟨d, small, rfl⟩
      · exact fits here
      · exact absurd h (by decide)
      · exact digit d small h

theorem notMem_toAscii? (h : mark ∈ marks) {name out : List Char}
    (ascii : Domain.toAscii? name = some out) : mark ∉ out := by
  have forbidden : Domain.isForbidden mark = true := of_marks h (by decide)
  have label : ∀ {labels parts : List (List Char)}, labels.mapM Domain.labelToAscii? = some parts →
      (∀ label ∈ labels, mark ∉ label) → ∀ part ∈ parts, mark ∉ part := by
    intro labels
    induction labels with
    | nil =>
        rintro _ ⟨⟩ _ part ⟨⟩
    | cons label rest ih =>
        intro parts each fits
        simp only [List.mapM_cons, Option.bind_eq_bind, Option.bind_eq_some_iff, Option.pure_def,
          Option.some.injEq] at each
        obtain ⟨first, one, later, others, rfl⟩ := each
        intro part mem
        rcases List.mem_cons.mp mem with rfl | mem
        · exact notMem_labelToAscii? h (fits label List.mem_cons_self) one
        · exact ih others (fun label hl => fits label (List.mem_cons_of_mem _ hl)) part mem
  unfold Domain.toAscii? at ascii
  simp only at ascii
  split at ascii
  · cases ascii
  · rename_i allowed
    obtain ⟨parts, labels, rfl⟩ := Option.map_eq_some_iff.mp ascii
    intro mem
    rcases mem_intercalate mem with dot | ⟨part, hp, mem⟩
    · exact absurd dot (of_marks h (by decide))
    · refine label labels ?_ part hp mem
      intro label hl here
      exact allowed (List.any_eq_true.mpr ⟨mark, mem_of_mem_pieces hl here, forbidden⟩)

theorem notMem_bracketed (h : mark ∈ marks) {cs : List Char} {host : Host}
    (read : bracketed cs = .ok host) : mark ∉ host.write.toList := by
  unfold bracketed at read
  split at read
  · split at read
    · rename_i a _
      cases read
      have ends : mark ∉ "[".toList ∧ mark ∉ "]".toList :=
        ⟨of_marks h (by decide), of_marks h (by decide)⟩
      rw [Host.write, String.toList_append, String.toList_append, List.mem_append, List.mem_append,
        not_or, not_or]
      exact ⟨⟨ends.1, notMem_ipv6 h a⟩, ends.2⟩
    · cases read
  · cases read

/-- **A host that is read has no mark in it.** -/
theorem notMem_domain (h : mark ∈ marks) {cs : List Char} {host : Host}
    (read : domain cs = .ok host) : mark ∉ host.write.toList := by
  unfold domain at read
  split at read
  · exact notMem_bracketed h read
  · split at read
    · cases read
    · cases read
    · rename_i name _ known
      obtain ⟨text, -, ascii⟩ := Option.bind_eq_some_iff.mp known
      split at read
      · split at read
        · cases read
          exact notMem_ipv4 h _
        · cases read
      · cases read
        rw [Host.write, String.toList_ofList]
        exact notMem_toAscii? h ascii

@[inherit_doc notMem_domain]
theorem notMem_plainHost (h : mark ∈ marks) {cs : List Char} {host : Host}
    (read : plainHost cs = .ok host) : mark ∉ host.write.toList := by
  have forbidden : isForbiddenInHost mark = true := of_marks h (by decide)
  unfold plainHost at read
  split at read
  · exact notMem_bracketed h read
  · split at read
    · cases read
    · rename_i allowed
      cases read
      rw [Host.write]
      refine Percent.notMem_encode (ascii_of_marks h) (notMem_escape h) (.inr ?_)
      rw [String.toList_ofList]
      exact fun mem => allowed (List.any_eq_true.mpr ⟨mark, mem, forbidden⟩)

/-! ### What stands before the query -/

/-- A mark is in no part of an address that stands before its query. -/
structure Lacks (mark : Char) (u : Url) : Prop where
  scheme : mark ∉ u.scheme.toList
  username : mark ∉ u.username.toList
  password : mark ∉ u.password.toList
  host : ∀ host, u.host = some host → mark ∉ host.write.toList
  path : mark ∉ u.pathText.toList

variable {u : Url} {scheme : String} {cs : List Char}

/-- An authority has a host that was read, encoded credentials, and no path. -/
theorem lacks_authority (h : mark ∈ marks) (own : mark ∉ scheme.toList) {more : Bool}
    {rest : List Char} (read : authority scheme more cs = .ok (u, rest)) : u.Lacks mark := by
  have encoded : ∀ cs, mark ∉ (splitCredentials cs).1.toList ∧
      mark ∉ (splitCredentials cs).2.toList := by
    intro cs
    have part : ∀ cs, mark ∉ (encode credentialReserved cs).toList :=
      fun cs => notMem_encode h (.inl (mem_reserved h).2)
    unfold splitCredentials
    split
    · exact ⟨part _, part _⟩
    · exact ⟨part _, List.not_mem_nil⟩
  -- Whatever is checked before, the address is put together in one way.
  have built : ∀ {login after : List Char} {found : Except Fault Host},
      (∀ host, found = .ok host → mark ∉ host.write.toList) →
      (do
        let host ← found
        let port ← portOf scheme after
        return (⟨scheme, (splitCredentials login).1, (splitCredentials login).2, some host, port.1,
          .segments [], none, none⟩, port.2)) = Except.ok (u, rest) → u.Lacks mark := by
    intro login after found fits read
    simp only [Checks.bind_eq_ok, Checks.pure_eq_ok, Prod.mk.injEq] at read
    obtain ⟨host, known, port, -, rfl, -⟩ := read
    refine ⟨own, (encoded login).1, (encoded login).2, ?_, List.not_mem_nil⟩
    rintro _ ⟨⟩
    exact fits host known
  unfold authority at read
  simp only at read
  generalize (credentials? (isSpecial scheme) cs).getD ([], cs) = login at read
  split at read
  · simp only [Checks.unless_eq_ok] at read
    obtain ⟨-, -, read⟩ := read
    split at read
    · exact built (fun _ => notMem_domain h) read
    · exact built (fun _ => notMem_plainHost h) read
  · simp only [Checks.unless_eq_ok] at read
    obtain ⟨-, read⟩ := read
    split at read
    · exact built (fun _ => notMem_domain h) read
    · exact built (fun _ => notMem_plainHost h) read

/-- The segments that are left when a path is followed are among its own. -/
theorem mem_follow {item : String} {done rest : List String} (mem : item ∈ follow done rest) :
    item ∈ done ∨ item ∈ rest ∨ item = "" := by
  induction rest generalizing done with
  | nil => exact .inl mem
  | cons first rest ih =>
      have next : item ∈ (if isUp first then done.dropLast
          else if isHere first then done else done ++ [first]) →
          item ∈ done ∨ item ∈ first :: rest ∨ item = "" := by
        intro mem
        split at mem
        · exact .inl (List.dropLast_subset _ mem)
        · split at mem
          · exact .inl mem
          · refine (List.mem_append.mp mem).imp_right fun last => .inl ?_
            rw [List.mem_singleton.mp last]
            exact List.mem_cons_self
      simp only [follow] at mem
      split at mem
      · exact (List.mem_append.mp mem).elim next
          fun last => .inr (.inr (List.mem_singleton.mp last))
      · rcases ih mem with stayed | later | empty
        · exact next stayed
        · exact .inr (.inl (List.mem_cons_of_mem _ later))
        · exact .inr (.inr empty)

theorem notMem_segments (h : mark ∈ marks) {special : Bool} {item : String}
    (mem : item ∈ segments special cs) : mark ∉ item.toList := by
  rcases mem_follow mem with before | written | rfl
  · cases before
  · obtain ⟨piece, -, rfl⟩ := List.mem_map.mp written
    exact notMem_encode h (.inl (mem_reserved h).1)
  · exact List.not_mem_nil

theorem notMem_fileSegments (h : mark ∈ marks) {item : String} (mem : item ∈ fileSegments cs) :
    mark ∉ item.toList := by
  have kept : ∀ item ∈ (segments true cs).dropWhile (· = ""), mark ∉ item.toList :=
    fun item mem => notMem_segments h ((List.dropWhile_sublist _).subset mem)
  unfold fileSegments at mem
  split at mem
  · rw [List.mem_singleton.mp mem]
    exact List.not_mem_nil
  · rename_i first rest left
    rw [left] at kept
    rcases List.mem_cons.mp mem with rfl | later
    · split
      · rw [String.toList_ofList, List.mem_append, not_or]
        exact ⟨fun letter => kept first List.mem_cons_self (List.mem_of_mem_take letter),
          of_marks h (by decide)⟩
      · exact kept first List.mem_cons_self
    · exact kept item (List.mem_cons_of_mem _ later)

/-- An address with other segments. -/
theorem Lacks.withSegments (lacks : u.Lacks mark) (h : mark ∈ marks) {items : List String}
    (fits : ∀ item ∈ items, mark ∉ item.toList) :
    { u with path := .segments items }.Lacks mark := by
  refine ⟨lacks.scheme, lacks.username, lacks.password, lacks.host, ?_⟩
  have slash : mark ∉ "/".toList := of_marks h (by decide)
  rw [pathText, String.toList_join, List.mem_flatMap]
  rintro ⟨text, written, mem⟩
  obtain ⟨item, hi, rfl⟩ := List.mem_map.mp written
  rw [String.toList_append] at mem
  exact (List.mem_append.mp mem).elim slash (fits item hi)

theorem lacks_readFile (h : mark ∈ marks) (read : readFile cs = .ok u) : u.Lacks mark := by
  have here : ∀ {host : Host} {items : List String}, mark ∉ host.write.toList →
      (∀ item ∈ items, mark ∉ item.toList) →
      Lacks mark { scheme := "file", host := some host, path := .segments items } := by
    intro host items fits each
    have empty : Lacks mark { scheme := "file", host := some host, path := .segments [] } := by
      have scheme : mark ∉ "file".toList := of_marks h (by decide)
      refine ⟨scheme, List.not_mem_nil, List.not_mem_nil, ?_, List.not_mem_nil⟩
      rintro _ ⟨⟩
      exact fits
    exact empty.withSegments h each
  have files : ∀ cs, ∀ item ∈ fileSegments cs, mark ∉ item.toList :=
    fun _ _ => notMem_fileSegments h
  have noHost : mark ∉ (Host.name "").write.toList := List.not_mem_nil
  unfold readFile at read
  simp only at read
  split at read
  · split at read
    · split at read
      · cases read
        exact here noHost (files _)
      · simp only [Checks.bind_eq_ok, Checks.pure_eq_ok] at read
        obtain ⟨host, known, rfl⟩ := read
        refine here ?_ (files _)
        split
        · exact noHost
        · exact notMem_domain h known
    · cases read
      exact here noHost (files _)
  · cases read
    exact here noHost (files _)

/-- What stands between the scheme and the query has no mark, if it had none before. -/
theorem lacks_readMiddle (h : mark ∈ marks) (own : mark ∉ scheme.toList) {more : Bool}
    (fits : mark ∉ cs) (read : readMiddle scheme more cs = .ok u) : u.Lacks mark := by
  have bare : Lacks mark { scheme, path := .segments [] } := by
    refine ⟨own, List.not_mem_nil, List.not_mem_nil, ?_, List.not_mem_nil⟩
    rintro _ ⟨⟩
  unfold readMiddle at read
  split at read
  · exact lacks_readFile h read
  · split at read
    · simp only [Checks.bind_eq_ok, Checks.pure_eq_ok] at read
      obtain ⟨⟨v, rest⟩, front, rfl⟩ := read
      exact (lacks_authority h own front).withSegments h fun item => notMem_segments h
    · split at read
      · simp only [Checks.bind_eq_ok, Checks.pure_eq_ok] at read
        obtain ⟨⟨v, rest⟩, front, rfl⟩ := read
        split
        · exact lacks_authority h own front
        · exact (lacks_authority h own front).withSegments h fun item => notMem_segments h
      · cases read
        exact bare.withSegments h fun item => notMem_segments h
      · cases read
        exact ⟨own, List.not_mem_nil, List.not_mem_nil, bare.host, notMem_encode h (.inr fits)⟩

/-- What stands before the first separator of a text does not have it. -/
theorem notMem_cutOff (sep : Char) (cs : List Char) :
    sep ∉ (cutOff sep cs).1 ∧ (cutOff sep cs).1 ⊆ cs := by
  unfold cutOff
  split
  · rename_i front back cut
    obtain ⟨rfl, free⟩ := cutChars_eq_some_iff.mp cut
    exact ⟨free, List.subset_append_left _ _⟩
  · rename_i whole
    refine ⟨?_, List.Subset.refl cs⟩
    intro mem
    obtain ⟨front, back, rfl, first⟩ := List.eq_append_cons_of_mem mem
    cases whole.symm.trans (cutChars_append first back)

/-- The characters of a scheme. -/
def inScheme (c : Char) : Bool :=
  c.isAlphanum || c = '+' || c = '-' || c = '.'

/-- A scheme has letters, digits and a few other characters only. -/
theorem notMem_scheme? (h : mark ∈ marks) {rest : List Char}
    (read : scheme? cs = some (scheme, rest)) : mark ∉ scheme.toList := by
  have outside : inScheme mark = false := of_marks h (by decide)
  have lower : ∀ c, inScheme c = true → c.toLower ≠ mark := by
    rintro c inside rfl
    by_cases capital : 'A'.val ≤ c.val ∧ c.val ≤ 'Z'.val
    · have ascii : c.toNat < 128 :=
        Nat.lt_of_le_of_lt (UInt32.le_iff_toNat_le.mp capital.2) (by decide)
      exact Bytes.forall_ascii (fun c => inScheme c = true → c.toLower ∉ marks) (by decide) c ascii
        inside h
    · have same : c.toLower = c := dif_neg capital
      rw [same] at outside
      cases outside.symm.trans inside
  simp only [scheme?] at read
  split at read
  · split at read
    · cases read
      rw [lowerAscii, String.toList_ofList, String.toList_ofList]
      intro mem
      obtain ⟨c, hc, same⟩ := List.mem_map.mp mem
      exact lower c (List.mem_takeWhile_imp hc) same
    · cases read
  · cases read

/-- **No mark stands before the query of an address that was read**, and its query has none that
begins a fragment. -/
theorem lacks_of_read {s : String} (read : Url.read s = .ok u) :
    (∀ mark ∈ marks, u.Lacks mark) ∧ ∀ q, u.query = some q → '#' ∉ q.toList := by
  unfold Url.read at read
  split at read
  · cases read
  · rename_i scheme cs found
    simp only [Checks.bind_eq_ok, Checks.pure_eq_ok] at read
    obtain ⟨v, middle, rfl⟩ := read
    constructor
    · intro mark h
      have fits : mark ∉ (cutOff '?' (cutOff '#' cs).1).1 := by
        refine of_marks h ⟨(notMem_cutOff '?' _).1, fun mem => ?_⟩
        exact (notMem_cutOff '#' cs).1 ((notMem_cutOff '?' _).2 mem)
      have front := lacks_readMiddle h (notMem_scheme? h found) fits middle
      exact ⟨front.scheme, front.username, front.password, front.host, front.path⟩
    · rintro _ asked
      obtain ⟨q, -, rfl⟩ := Option.map_eq_some_iff.mp asked
      have reserved : ∀ special, '#' ∈ (queryReserved special).toList := by decide
      exact notMem_encode (by simp [marks]) (.inl (reserved _))

/-! ### The query of a link -/

/-- The query of a link: what stands behind its first `?`, without a fragment. -/
def queryOf? (link : String) : Option String :=
  (cutChars '?' (link.toList.takeWhile (· ≠ '#'))).map fun parts => String.ofList parts.2

/-- The three parts of a link: what stands before its query, that is its scheme, its authority and
its path, then the query, and the fragment. -/
def parts (link : String) : String × Option String × Option String :=
  let (rest, fragment) := cutOff '#' link.toList
  let (front, query) := cutOff '?' rest
  (String.ofList front, query.map String.ofList, fragment.map String.ofList)

theorem cutOff_append {sep : Char} {front : List Char} (first : sep ∉ front) (back : List Char) :
    cutOff sep (front ++ sep :: back) = (front, some back) := by
  rw [cutOff, cutChars_append first]

theorem cutOff_of_notMem {sep : Char} {cs : List Char} (lacks : sep ∉ cs) :
    cutOff sep cs = (cs, none) := by
  have whole : cutChars sep cs = none := by
    by_contra there
    obtain ⟨⟨front, back⟩, cut⟩ := Option.ne_none_iff_exists'.mp there
    obtain ⟨rfl, -⟩ := cutChars_eq_some_iff.mp cut
    exact lacks (List.mem_append_right _ List.mem_cons_self)
  rw [cutOff, whole]

/-- A part of a link that may be there, behind the mark that begins it. -/
def behind (mark : Char) : Option String → String
  | some text => String.singleton mark ++ text
  | none => ""

theorem cutOff_behind {sep : Char} {front : List Char} (lacks : sep ∉ front)
    (part : Option String) :
    cutOff sep (front ++ (behind sep part).toList) = (front, part.map String.toList) := by
  cases part with
  | some text =>
      rw [behind, String.toList_append, String.toList_singleton]
      exact cutOff_append lacks text.toList
  | none =>
      rw [behind, String.toList_empty, List.append_nil]
      exact cutOff_of_notMem lacks

/-- **The parts of a link are found in its text.** -/
theorem parts_append {front : String} (plain : ∀ mark ∈ marks, mark ∉ front.toList)
    {query : Option String} (fits : ∀ q, query = some q → '#' ∉ q.toList)
    (fragment : Option String) :
    parts (front ++ behind '?' query ++ behind '#' fragment) = (front, query, fragment) := by
  have whole : '#' ∉ (front ++ behind '?' query).toList := by
    have own : '#' ∉ (behind '?' query).toList := by
      cases query with
      | some q => simpa [behind] using fits q rfl
      | none => exact List.not_mem_nil
    rw [String.toList_append, List.mem_append, not_or]
    exact ⟨plain '#' (by simp [marks]), own⟩
  have outer : cutOff '#' (front ++ behind '?' query ++ behind '#' fragment).toList =
      ((front ++ behind '?' query).toList, fragment.map String.toList) := by
    rw [String.toList_append]
    exact cutOff_behind whole fragment
  have inner : cutOff '?' (front ++ behind '?' query).toList =
      (front.toList, query.map String.toList) := by
    rw [String.toList_append]
    exact cutOff_behind (plain '?' (by simp [marks])) query
  have back : String.ofList ∘ String.toList = id := funext fun s => String.ofList_toList
  rw [parts, outer]
  simp only [inner, String.ofList_toList, Option.map_map, back, Option.map_id, id]

/-- What stands before the first separator is found character by character, too. -/
theorem takeWhile_eq_cutOff (sep : Char) (cs : List Char) :
    cs.takeWhile (· ≠ sep) = (cutOff sep cs).1 := by
  by_cases there : sep ∈ cs
  · obtain ⟨front, back, rfl, first⟩ := List.eq_append_cons_of_mem there
    have kept : ∀ c ∈ front, decide (c ≠ sep) = true := by
      rintro c mem
      exact decide_eq_true fun same => first (same ▸ mem)
    rw [cutOff_append first, List.takeWhile_append_of_pos kept,
      List.takeWhile_cons_of_neg (by simp), List.append_nil]
  · rw [cutOff_of_notMem there, List.takeWhile_eq_self_iff]
    exact fun c mem => decide_eq_true fun same => there (same ▸ mem)

theorem queryOf?_eq_parts (link : String) : queryOf? link = (parts link).2.1 := by
  rw [queryOf?, takeWhile_eq_cutOff, parts]
  simp only [cutOff]
  cases cutChars '?' _ with
  | some cut => rfl
  | none => rfl

theorem queryOf?_append {front back q : String} (free : ∀ mark ∈ marks, mark ∉ front.toList)
    (fits : '#' ∉ q.toList) (ends : back = "" ∨ ∃ f, back = "#" ++ f) :
    queryOf? (front ++ ("?" ++ q) ++ back) = some q := by
  have own : ∀ p, some q = some p → '#' ∉ p.toList := by
    rintro _ ⟨⟩
    exact fits
  rw [queryOf?_eq_parts]
  rcases ends with rfl | ⟨f, rfl⟩
  · exact congrArg (·.2.1) (parts_append free own none)
  · exact congrArg (·.2.1) (parts_append free own (some f))

/-- The same of what an address is written as, up to its query. -/
theorem Lacks.front (lacks : u.Lacks mark) (h : mark ∈ marks) :
    mark ∉ (u.scheme ++ ":" ++ u.writeAuthority ++ u.writePath).toList := by
  have fixed : mark ∉ ":".toList ∧ mark ∉ "@".toList ∧ mark ∉ "//".toList ∧ mark ∉ "/.".toList :=
    ⟨of_marks h (by decide), of_marks h (by decide), of_marks h (by decide),
      of_marks h (by decide)⟩
  obtain ⟨colon, sign, slashes, dot⟩ := fixed
  have joined : ∀ {a b : String}, mark ∉ a.toList → mark ∉ b.toList → mark ∉ (a ++ b).toList := by
    intro a b ha hb
    rw [String.toList_append, List.mem_append, not_or]
    exact ⟨ha, hb⟩
  have credentials : mark ∉ u.writeCredentials.toList := by
    unfold writeCredentials
    split
    · exact List.not_mem_nil
    · refine joined (joined lacks.username ?_) sign
      split
      · exact List.not_mem_nil
      · exact joined colon lacks.password
  have authority : mark ∉ u.writeAuthority.toList := by
    unfold writeAuthority
    split
    · exact List.not_mem_nil
    · rename_i host known
      refine joined (joined (joined slashes credentials) (lacks.host host known)) ?_
      split
      · exact joined colon (notMem_decimal h _)
      · exact List.not_mem_nil
  have path : mark ∉ u.writePath.toList := by
    unfold writePath
    split
    · exact joined dot lacks.path
    · exact lacks.path
  exact joined (joined (joined lacks.scheme colon) authority) path

/-- What an address is written as, up to its query: its scheme, its authority and its path. -/
def front (u : Url) : String :=
  u.scheme ++ ":" ++ u.writeAuthority ++ u.writePath

/-- **The parts of an address are found in its text.** -/
theorem parts_write (lacks : ∀ mark ∈ marks, u.Lacks mark)
    (fits : ∀ q, u.query = some q → '#' ∉ q.toList) :
    parts u.write = (u.front, u.query, u.fragment) := by
  have written : u.write = u.front ++ behind '?' u.query ++ behind '#' u.fragment := by
    rw [write, front]
    cases u.query <;> cases u.fragment <;> rfl
  rw [written]
  exact parts_append (fun mark h => (lacks mark h).front h) fits u.fragment

/-- **The query of an address is found in its text.** -/
theorem queryOf?_write (lacks : ∀ mark ∈ marks, u.Lacks mark) {q : String}
    (asked : u.query = some q) (fits : '#' ∉ q.toList) : queryOf? u.write = some q := by
  have own : ∀ p, u.query = some p → '#' ∉ p.toList := by
    rw [asked]
    rintro _ ⟨⟩
    exact fits
  rw [queryOf?_eq_parts, parts_write lacks own, asked]

/-- **Pairs that are added to an address change its query only**, which then holds them behind the
pairs of its own. -/
theorem addQuery_spec (own : ∀ q, u.query = some q → '#' ∉ q.toList) (pairs : List Form.Pair) :
    ∃ q, u.addQuery pairs = { u with query := some q } ∧ '#' ∉ q.toList ∧
      Form.decode q = u.queryPairs ++ pairs := by
  have added : '#' ∉ (Form.encode pairs).toList := Form.not_mem_encode (by simp) pairs
  unfold addQuery queryPairs
  simp only
  split
  · rename_i nothing
    refine ⟨_, rfl, added, ?_⟩
    rw [nothing, Form.decode_encode]
    rfl
  · rename_i empty
    refine ⟨_, rfl, added, ?_⟩
    rw [empty, Form.decode_encode]
    rfl
  · rename_i q _ asked
    have fits : '#' ∉ (q ++ "&" ++ Form.encode pairs).toList := by
      simp [String.toList_append, own q asked, added]
    refine ⟨_, rfl, fits, ?_⟩
    rw [asked, Form.decode_append, Form.decode_encode]
    rfl

/-- An address with another query. -/
theorem Lacks.withQuery (lacks : u.Lacks mark) (query : Option String) :
    { u with query }.Lacks mark :=
  ⟨lacks.scheme, lacks.username, lacks.password, lacks.host, lacks.path⟩

/-- **Pairs that are added to an address are found in its text**, behind its own. -/
theorem decode_addQuery {s : String} (read : Url.read s = .ok u) (pairs : List Form.Pair) :
    ∃ q, queryOf? (u.addQuery pairs).write = some q ∧
      Form.decode q = u.queryPairs ++ pairs := by
  obtain ⟨lacks, own⟩ := lacks_of_read read
  obtain ⟨q, added, fits, decoded⟩ := addQuery_spec own pairs
  rw [added]
  exact ⟨q, queryOf?_write (fun mark h => (lacks mark h).withQuery (some q)) rfl fits, decoded⟩

end Url

end Gatehouse
