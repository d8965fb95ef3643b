import Gatehouse.Proofs.App.Cookies
import Gatehouse.Proofs.Http.Cookie

/-!
A browser and its logins.

A browser visits an app: it sends requests with some of its cookies, and keeps,
replaces and drops cookies as the responses say (`visit`, `browse`). It may lose
cookies at any time, and others may change the world between two visits.

* `Shown` says what a browser is shown by a response, read off the cookies that
  the app sets.
* `Sound` is what every visit preserves: a state that the browser holds is the one
  that was issued last, and no session was given for it yet.
* `session_needs_latest_state` is the account of a whole run.
-/

namespace Gatehouse.App

open Http Auth OAuth

variable {ω : Type}

/-- A visit: the request, but for its cookies, and what happens before it. -/
structure Visit (ω : Type) where
  request : Request
  /-- What others do to the world. -/
  meanwhile : World ω → World ω
  /-- The cookies that are not lost. -/
  keeps : List Cookie.Pair → List Cookie.Pair
  /-- The cookies that are sent. -/
  sends : List Cookie.Pair → List Cookie.Pair
  keeps_subset : ∀ cookies, keeps cookies ⊆ cookies
  sends_subset : ∀ cookies, sends cookies ⊆ cookies

/-- A request as it was sent, and its response. -/
structure Exchange where
  request : Request
  response : Response

/-- A browser in the world, with its cookies and the visits so far. -/
structure Browser (ω : Type) where
  cookies : List Cookie.Pair
  world : World ω
  past : List Exchange

/-- Do with a cookie as a response says: it takes the place of any of its name,
or only drops it. -/
def keep (cookies : List Cookie.Pair) (c : SetCookie) : List Cookie.Pair :=
  cookies.filter (fun p => p.1 != c.name) ++ if c.deletes then [] else [(c.name, c.value)]

/-- The request with the cookies that are sent of those that are kept. -/
def Visit.sent (v : Visit ω) (kept : List Cookie.Pair) : Request :=
  { v.request with headers := Cookie.send (v.sends kept) v.request.headers }

def visit (app : App ω) (b : Browser ω) (v : Visit ω) : Browser ω :=
  let kept := v.keeps b.cookies
  let (response, world) := app.respond (v.sent kept) (v.meanwhile b.world)
  ⟨response.cookies.foldl keep kept, world, b.past ++ [⟨v.sent kept, response⟩]⟩

def browse (app : App ω) (b : Browser ω) (visits : List (Visit ω)) : Browser ω :=
  visits.foldl (visit app) b

def statesOf (cookies : List SetCookie) : List String :=
  (cookies.filter fun c => c.name == stateCookie && c.value != "").map SetCookie.value

/-- The states that a response to a login sets. -/
def Exchange.issued (e : Exchange) : List String :=
  if e.request.path = "/login" then statesOf e.response.cookies else []

/-- The response does anything with the session but clear it. -/
def Exchange.givesSession (e : Exchange) : Bool :=
  e.response.cookies.any fun c => c.name == sessionCookie && (c.value != "" || !c.deletes)

/-- The states that were issued, in order. -/
def issued (past : List Exchange) : List String :=
  past.flatMap Exchange.issued

/-- The states that a session was given for, in order. -/
def consumed (past : List Exchange) : List String :=
  (past.filter Exchange.givesSession).map fun e => param e.request "state"

/-- A cookie in which no state of a login is read. -/
def Foreign (c : Cookie.Pair) : Prop :=
  ∀ q ∈ Cookie.pairsOf c.text, q.1 ≠ stateCookie

instance (c : Cookie.Pair) : Decidable (Foreign c) :=
  inferInstanceAs (Decidable (∀ q ∈ Cookie.pairsOf c.text, q.1 ≠ stateCookie))

/-! ### What a browser is shown -/

section Shown

variable {r : Request}

/-- The cookie neither gives a session nor issues a state. -/
structure Harmless (s : SetCookie) : Prop where
  clears : s.name = sessionCookie ∨ s.name = stateCookie → s.value = "" ∧ s.deletes = true
  known : s.name = sessionCookie ∨ s.name = stateCookie ∨ s.name = redirectCookie
  whole : ';' ∉ s.value.toList

/-- The cookies that a response to the request may show to a browser. -/
inductive Shown (r : Request) : List SetCookie → Prop
  | quiet {rest : List SetCookie} : (∀ s ∈ rest, Harmless s) → Shown r rest
  | state {seed : Seed} {s : SetCookie} {rest : List SetCookie} : r.path = "/login" →
      s.name = stateCookie → s.value = stateOf seed → s.deletes = false →
      (∀ s ∈ rest, Harmless s) → Shown r (s :: rest)
  | session {s t : SetCookie} {rest : List SetCookie} : KeptState r → Harmless s →
      s.name = stateCookie → t.name = sessionCookie → ';' ∉ t.value.toList →
      (∀ s ∈ rest, Harmless s) → Shown r (s :: t :: rest)

variable {c : Cookie.Setting} {s : SetCookie}

theorem deletes_of_read? (named : SetCookie.IsName c.name)
    (read : SetCookie.read? c.write = some s) : s.deletes = decide (c.maxAge ≤ 0) := by
  rw [SetCookie.deletes, (SetCookie.of_read?_write named read).2.1]
  rfl

theorem harmless_of_cleared {name : String} {secure : Bool}
    (known : name = sessionCookie ∨ name = stateCookie) (named : SetCookie.IsName name)
    (read : SetCookie.read? (Cookie.Setting.cleared name secure).write = some s) :
    s.name = name ∧ Harmless s := by
  have dropped : s.deletes = true := deletes_of_read? (c := .cleared name secure) named read
  have plain := SetCookie.read?_write_of_isPlain (c := .cleared name secure) named
    fun _ hc => absurd hc (by simp [Cookie.Setting.cleared])
  cases plain.symm.trans read
  refine ⟨rfl, fun _ => ⟨rfl, dropped⟩, known.imp_right .inl, ?_⟩
  show ';' ∉ "".toList
  simp

theorem harmless_of_quiet (quiet : Quiet c) (read : SetCookie.read? c.write = some s) :
    Harmless s := by
  rcases quiet with redirect | ⟨secure, rfl | rfl⟩
  · obtain ⟨name, -, whole⟩ :=
      SetCookie.of_read?_write (redirect ▸ isName_redirectCookie) read
    rw [redirect] at name
    refine ⟨?_, .inr (.inr name), whole⟩
    rintro (other | other)
    · exact absurd (name.symm.trans other) (by decide)
    · exact absurd (name.symm.trans other) (by decide)
  · exact (harmless_of_cleared (.inl rfl) isName_sessionCookie read).2
  · exact (harmless_of_cleared (.inr rfl) isName_stateCookie read).2

theorem harmless_of_mem {cs : List Cookie.Setting} (quiet : ∀ c ∈ cs, Quiet c) :
    ∀ s ∈ cs.filterMap fun c => SetCookie.read? c.write, Harmless s := by
  intro s hs
  obtain ⟨c, hc, read⟩ := List.mem_filterMap.mp hs
  exact harmless_of_quiet (quiet c hc) read

theorem shown_of_writes {cs : List Cookie.Setting} (h : Writes r cs) :
    Shown r (cs.filterMap fun c => SetCookie.read? c.write) := by
  cases h with
  | quiet quiet => exact .quiet (harmless_of_mem quiet)
  | @state seed secure cs path quiet =>
      have read : SetCookie.read? (Cookie.Setting.write ⟨stateCookie, stateOf seed, true, secure,
          shortMaxAge⟩) = some ⟨stateCookie, stateOf seed, _⟩ :=
        SetCookie.read?_write_of_isPlain isName_stateCookie fun _ hc => isPlain_of_mem_stateOf hc
      rw [List.filterMap_cons, read]
      exact .state path rfl rfl (deletes_of_read? isName_stateCookie read) (harmless_of_mem quiet)
  | @session token secure age cs path kept quiet =>
      obtain ⟨_, _, -, cleared⟩ :=
        SetCookie.read?_write (c := .cleared stateCookie secure) isName_stateCookie
      obtain ⟨_, _, -, given⟩ :=
        SetCookie.read?_write (c := ⟨sessionCookie, token, true, secure, age⟩) isName_sessionCookie
      obtain ⟨name, harmless⟩ := harmless_of_cleared (.inr rfl) isName_stateCookie cleared
      obtain ⟨session, -, whole⟩ := SetCookie.of_read?_write isName_sessionCookie given
      rw [List.filterMap_cons, cleared, List.filterMap_cons, given]
      exact .session kept harmless name session whole (harmless_of_mem quiet)

theorem shown_respond (app : App ω) (r : Request) (w : World ω) :
    Shown r (app.respond r w).1.cookies := by
  obtain ⟨cs, sets, writes⟩ := respond_writes app r w
  rw [SetCookie.cookies_of_sets sets]
  exact shown_of_writes writes

end Shown

/-! ### What a browser holds -/

section Holds

variable {c : Cookie.Pair} {cookies : List Cookie.Pair} {past : List Exchange} {s : SetCookie}

/-- A cookie of the browser is foreign, or it is the state that was issued last and
that no session was given for. -/
def Holds (past : List Exchange) (c : Cookie.Pair) : Prop :=
  Foreign c ∨ ∃ seed, c = (stateCookie, stateOf seed) ∧
    (issued past).getLast? = some (stateOf seed) ∧
    ((issued past).Nodup → stateOf seed ∉ consumed past)

theorem trimChars_name {name : String} (known : name = sessionCookie ∨ name = stateCookie ∨
    name = redirectCookie) : Text.trimChars name.toList = name.toList := by
  rcases known with rfl | rfl | rfl <;> decide

theorem isName_of_known {name : String} (known : name = sessionCookie ∨ name = stateCookie ∨
    name = redirectCookie) : SetCookie.IsName name := by
  rcases known with rfl | rfl | rfl
  · exact isName_sessionCookie
  · exact isName_stateCookie
  · exact isName_redirectCookie

theorem pairsOf_known {name value : String} (known : name = sessionCookie ∨ name = stateCookie ∨
    name = redirectCookie) (whole : ';' ∉ value.toList) :
    Cookie.pairsOf (Cookie.Pair.text (name, value)) = [(name, Text.trim value)] := by
  obtain ⟨filled, plain⟩ := isName_of_known known
  exact Cookie.pairsOf_text filled (trimChars_name known) (fun h => (plain _ h).2 rfl)
    (fun h => (plain _ h).1.2.1 rfl) whole

/-- What the app has a browser keep is foreign, but for a state. -/
theorem foreign_of_known {name value : String}
    (known : name = sessionCookie ∨ name = redirectCookie)
    (whole : ';' ∉ value.toList) : Foreign (name, value) := by
  intro q hq
  rw [pairsOf_known (known.imp_right .inr) whole] at hq
  rw [List.mem_singleton.mp hq]
  show name ≠ stateCookie
  rcases known with rfl | rfl <;> decide

theorem Holds.foreign (h : Holds past c) (other : c.1 ≠ stateCookie) : Foreign c := by
  rcases h with foreign | ⟨seed, rfl, -⟩
  · exact foreign
  · exact absurd rfl other

theorem mem_keep : c ∈ keep cookies s ↔
    (c ∈ cookies ∧ c.1 ≠ s.name) ∨ (s.deletes = false ∧ c = (s.name, s.value)) := by
  rw [keep, List.mem_append, List.mem_filter, bne_iff_ne]
  cases s.deletes <;> simp

theorem mem_of_mem_keep_of_deletes (h : c ∈ keep cookies s) (drops : s.deletes = true) :
    c ∈ cookies ∧ c.1 ≠ s.name := by
  rcases mem_keep.mp h with old | ⟨stays, -⟩
  · exact old
  · exact absurd drops (by simp [stays])

/-- Harmless cookies leave nothing new to a browser that is not foreign. -/
theorem mem_foldl_keep {rest : List SetCookie} (harmless : ∀ s ∈ rest, Harmless s)
    (h : c ∈ rest.foldl keep cookies) : c ∈ cookies ∨ Foreign c := by
  induction rest generalizing cookies with
  | nil => exact .inl h
  | cons s rest ih =>
      rcases ih (fun t ht => harmless t (List.mem_cons_of_mem _ ht)) h with kept | foreign
      · rcases mem_keep.mp kept with ⟨old, -⟩ | ⟨stays, rfl⟩
        · exact .inl old
        · obtain ⟨clears, known, whole⟩ := harmless s List.mem_cons_self
          rcases known with session | state | redirect
          · exact absurd (clears (.inl session)).2 (by simp [stays])
          · exact absurd (clears (.inr state)).2 (by simp [stays])
          · exact .inr (foreign_of_known (.inr redirect) whole)
      · exact .inr foreign

/-- A request with the right state comes from a browser that holds that state. -/
theorem KeptState.holds {r : Request} {sent : List Cookie.Pair} {headers : Headers}
    (kept : KeptState r) (cookies : r.headers = Cookie.send sent headers)
    (held : ∀ c ∈ sent, Holds past c) :
    (issued past).getLast? = some (param r "state") ∧
      ((issued past).Nodup → param r "state" ∉ consumed past) := by
  obtain ⟨front, rest, pairs, -⟩ := List.lookup_eq_some_iff.mp kept.1
  have read : (stateCookie, param r "state") ∈ Cookie.pairs (Cookie.send sent headers) := by
    rw [← cookies, pairs]
    simp
  obtain ⟨c, hc, stems⟩ := Cookie.exists_of_mem_pairs_send read
  rcases held c hc with foreign | ⟨seed, rfl, latest, unspent⟩
  · exact absurd rfl (foreign _ stems)
  · have whole : ';' ∉ (stateOf seed).toList := fun h => (isPlain_of_mem_stateOf h).2.1 rfl
    rw [pairsOf_known (.inr (.inl rfl)) whole, trim_stateOf] at stems
    have same : param r "state" = stateOf seed := congrArg Prod.snd (List.mem_singleton.mp stems)
    rw [same]
    exact ⟨latest, unspent⟩

end Holds

/-! ### Runs -/

section Sound

variable {b : Browser ω} {e : Exchange} {past : List Exchange} {cookies rest : List SetCookie}
  {s t : SetCookie}

theorem issued_snoc : issued (past ++ [e]) = issued past ++ e.issued := by
  simp [issued]

theorem consumed_snoc : consumed (past ++ [e]) =
    consumed past ++ if e.givesSession then [param e.request "state"] else [] := by
  cases h : e.givesSession <;> simp [consumed, h]

theorem statesOf_cons_of_state (state : s.name = stateCookie) (filled : s.value ≠ "") :
    statesOf (s :: rest) = s.value :: statesOf rest := by
  simp [statesOf, state, filled]

theorem statesOf_cons_of_ne (h : s.name = stateCookie → s.value = "") :
    statesOf (s :: rest) = statesOf rest := by
  by_cases state : s.name = stateCookie
  · simp [statesOf, h state]
  · simp [statesOf, state]

theorem statesOf_of_harmless (h : ∀ s ∈ cookies, Harmless s) : statesOf cookies = [] := by
  induction cookies with
  | nil => rfl
  | cons s rest ih =>
      have empty : s.name = stateCookie → s.value = "" :=
        fun state => ((h s List.mem_cons_self).clears (.inr state)).1
      rw [statesOf_cons_of_ne empty]
      exact ih fun t ht => h t (List.mem_cons_of_mem _ ht)

theorem issued_snoc_of_none (h : statesOf e.response.cookies = []) :
    issued (past ++ [e]) = issued past := by
  rw [issued_snoc, Exchange.issued, h, ite_self, List.append_nil]

theorem consumed_snoc_of_not (h : e.givesSession = false) :
    consumed (past ++ [e]) = consumed past := by
  simp [consumed_snoc, h]

theorem Harmless.not_gives (h : Harmless s) :
    (s.name == sessionCookie && (s.value != "" || !s.deletes)) = false := by
  by_cases session : s.name = sessionCookie
  · obtain ⟨empty, drops⟩ := h.clears (.inl session)
    simp [empty, drops]
  · simp [session]

/-- What holds of every browser on the way. -/
structure Sound (b : Browser ω) : Prop where
  holds : ∀ c ∈ b.cookies, Holds b.past c
  spent : consumed b.past ⊆ issued b.past
  latest : ∀ before e after, b.past = before ++ e :: after → e.givesSession = true →
    (issued before).getLast? = some (param e.request "state")
  once : (issued b.past).Nodup → (consumed b.past).Nodup

theorem sound_of_foreign (clean : ∀ c ∈ b.cookies, Foreign c) (fresh : b.past = []) : Sound b where
  holds c hc := .inl (clean c hc)
  spent := by simp [fresh, consumed]
  latest before e after h := by simp [fresh] at h
  once := by simp [fresh, consumed]

/-- The visits before the last one are as they were. -/
theorem latest_snoc
    (old : ∀ before x after, past = before ++ x :: after → x.givesSession = true →
      (issued before).getLast? = some (param x.request "state"))
    (new : e.givesSession = true → (issued past).getLast? = some (param e.request "state")) :
    ∀ before x after, past ++ [e] = before ++ x :: after → x.givesSession = true →
      (issued before).getLast? = some (param x.request "state") := by
  intro before x after split gives
  rcases after.eq_nil_or_concat with rfl | ⟨front, last, rfl⟩
  · obtain ⟨rfl, same⟩ := List.append_inj' split rfl
    cases same
    exact new gives
  · rw [List.concat_eq_append, ← List.cons_append, ← List.append_assoc] at split
    obtain ⟨same, -⟩ := List.append_inj' split rfl
    exact old before x front same gives

/-- A response that shows nothing but harmless cookies changes nothing. -/
theorem Sound.quiet {kept : List Cookie.Pair} {w : World ω} (sound : Sound b)
    (left : kept ⊆ b.cookies) (harmless : ∀ s ∈ e.response.cookies, Harmless s) :
    Sound ⟨e.response.cookies.foldl keep kept, w, b.past ++ [e]⟩ := by
  have issues : issued (b.past ++ [e]) = issued b.past :=
    issued_snoc_of_none (statesOf_of_harmless harmless)
  have gives : e.givesSession = false :=
    List.any_eq_false.mpr fun s hs => by simpa using (harmless s hs).not_gives
  have spends : consumed (b.past ++ [e]) = consumed b.past := consumed_snoc_of_not gives
  constructor
  case holds =>
    intro c hc
    rcases mem_foldl_keep harmless hc with old | foreign
    · rw [Holds, issues, spends]
      exact sound.holds c (left old)
    · exact .inl foreign
  case spent =>
    rw [issues, spends]
    exact sound.spent
  case latest => exact latest_snoc sound.latest fun yes => absurd yes (by simp [gives])
  case once =>
    rw [issues, spends]
    exact sound.once

/-- A login makes its state the latest one. -/
theorem Sound.login {kept : List Cookie.Pair} {w : World ω} {seed : Seed} (sound : Sound b)
    (left : kept ⊆ b.cookies) (shown : e.response.cookies = s :: rest)
    (path : e.request.path = "/login") (name : s.name = stateCookie)
    (value : s.value = stateOf seed) (stays : s.deletes = false)
    (harmless : ∀ s ∈ rest, Harmless s) :
    Sound ⟨e.response.cookies.foldl keep kept, w, b.past ++ [e]⟩ := by
  have issues : issued (b.past ++ [e]) = issued b.past ++ [stateOf seed] := by
    have filled : s.value ≠ "" := value ▸ stateOf_ne_empty seed
    rw [issued_snoc, Exchange.issued, if_pos path, shown, statesOf_cons_of_state name filled,
      statesOf_of_harmless harmless, value]
  have gives : e.givesSession = false := by
    refine List.any_eq_false.mpr fun t ht => ?_
    rw [shown] at ht
    rcases List.mem_cons.mp ht with rfl | later
    · simp [name, show ¬ stateCookie = sessionCookie by decide]
    · simpa using (harmless t later).not_gives
  have spends : consumed (b.past ++ [e]) = consumed b.past := consumed_snoc_of_not gives
  constructor
  case holds =>
    intro c hc
    rw [shown, List.foldl_cons] at hc
    rcases mem_foldl_keep harmless hc with old | foreign
    · rcases mem_keep.mp old with ⟨before, other⟩ | ⟨-, rfl⟩
      · exact .inl ((sound.holds c (left before)).foreign (name ▸ other))
      · refine .inr ⟨seed, by rw [name, value], by simp [issues], fun distinct spent => ?_⟩
        rw [issues] at distinct
        rw [spends] at spent
        exact (List.nodup_append.mp distinct).2.2 _ (sound.spent spent) _ (by simp) rfl
    · exact .inl foreign
  case spent =>
    rw [issues, spends]
    exact fun x hx => List.mem_append_left _ (sound.spent hx)
  case latest => exact latest_snoc sound.latest fun yes => absurd yes (by simp [gives])
  case once =>
    rw [issues, spends]
    exact fun distinct => sound.once (List.nodup_append.mp distinct).1

/-- A session takes its state from the browser. -/
theorem Sound.session {kept : List Cookie.Pair} {w : World ω} (sound : Sound b)
    (left : kept ⊆ b.cookies) (shown : e.response.cookies = s :: t :: rest)
    (right : (issued b.past).getLast? = some (param e.request "state") ∧
      ((issued b.past).Nodup → param e.request "state" ∉ consumed b.past))
    (first : Harmless s) (state : s.name = stateCookie) (session : t.name = sessionCookie)
    (whole : ';' ∉ t.value.toList) (harmless : ∀ s ∈ rest, Harmless s) :
    Sound ⟨e.response.cookies.foldl keep kept, w, b.past ++ [e]⟩ := by
  have issues : issued (b.past ++ [e]) = issued b.past := by
    have apart : t.name = stateCookie → t.value = "" :=
      fun same => absurd (session.symm.trans same) (by decide)
    have stateless : statesOf e.response.cookies = [] := by
      rw [shown, statesOf_cons_of_ne fun _ => (first.clears (.inr state)).1,
        statesOf_cons_of_ne apart, statesOf_of_harmless harmless]
    exact issued_snoc_of_none stateless
  have spends : consumed (b.past ++ [e]) ⊆ consumed b.past ++ [param e.request "state"] := by
    rw [consumed_snoc]
    split
    · exact fun x hx => hx
    · exact fun x hx => List.mem_append_left _ (by simpa using hx)
  constructor
  case holds =>
    intro c hc
    rw [shown, List.foldl_cons, List.foldl_cons] at hc
    rcases mem_foldl_keep harmless hc with old | foreign
    · rcases mem_keep.mp old with ⟨before, -⟩ | ⟨-, rfl⟩
      · obtain ⟨before, other⟩ :=
          mem_of_mem_keep_of_deletes before (first.clears (.inr state)).2
        exact .inl ((sound.holds c (left before)).foreign (state ▸ other))
      · exact .inl (foreign_of_known (.inl session) whole)
    · exact .inl foreign
  case spent =>
    rw [issues]
    intro x hx
    rcases List.mem_append.mp (spends hx) with old | new
    · exact sound.spent old
    · rw [List.mem_singleton.mp new]
      exact List.mem_of_getLast? right.1
  case latest => exact latest_snoc sound.latest fun _ => right.1
  case once =>
    rw [issues]
    intro distinct
    rw [consumed_snoc]
    split
    · refine List.nodup_append.mpr ⟨sound.once distinct, List.nodup_singleton _, ?_⟩
      rintro x hx y hy rfl
      exact right.2 distinct (List.mem_singleton.mp hy ▸ hx)
    · simpa using sound.once distinct

/-- Whatever a browser is shown preserves it. -/
theorem Sound.step {kept sent : List Cookie.Pair} {headers : Headers} {w : World ω}
    (sound : Sound b) (left : kept ⊆ b.cookies) (part : sent ⊆ kept)
    (cookies : e.request.headers = Cookie.send sent headers)
    (shown : Shown e.request e.response.cookies) :
    Sound ⟨e.response.cookies.foldl keep kept, w, b.past ++ [e]⟩ := by
  generalize told : e.response.cookies = list at shown
  cases shown with
  | quiet harmless => exact told ▸ sound.quiet left (told ▸ harmless)
  | state path name value stays harmless =>
      exact told ▸ sound.login left told path name value stays harmless
  | session kept first state session whole harmless =>
      have right := kept.holds cookies fun c hc => sound.holds c (left (part hc))
      exact told ▸ sound.session left told right first state session whole harmless

theorem Sound.visit (sound : Sound b) (app : App ω) (v : Visit ω) : Sound (visit app b v) := by
  have shown := shown_respond app (v.sent (v.keeps b.cookies)) (v.meanwhile b.world)
  rw [App.visit]
  exact sound.step (e := ⟨v.sent (v.keeps b.cookies), _⟩) (v.keeps_subset _) (v.sends_subset _) rfl
    shown

theorem Sound.browse (sound : Sound b) (app : App ω) (visits : List (Visit ω)) :
    Sound (browse app b visits) := by
  induction visits generalizing b with
  | nil => exact sound
  | cons v rest ih => exact ih (sound.visit app v)

end Sound

/-- **A session needs the state that was issued last, and uses it up.** However a
browser without a state visits an app, a response gives a session only if the
state in its query is the one that the last login issued to the browser; and when
no state was issued twice, no session was given twice for the same state. -/
theorem session_needs_latest_state (app : App ω) (b : Browser ω)
    (clean : ∀ c ∈ b.cookies, Foreign c) (fresh : b.past = []) (visits : List (Visit ω)) :
    (∀ before e after, (browse app b visits).past = before ++ e :: after →
      e.givesSession = true → (issued before).getLast? = some (param e.request "state")) ∧
    ((issued (browse app b visits).past).Nodup → (consumed (browse app b visits).past).Nodup) := by
  have sound := (sound_of_foreign clean fresh).browse app visits
  exact ⟨sound.latest, sound.once⟩

def plainVisit (path : String) (query : Option String) : Visit Unit where
  request := { method := "GET", target := ⟨none, none, path, query⟩, headers := [] }
  meanwhile := id
  keeps := id
  sends := id
  keeps_subset _ := fun _ h => h
  sends_subset _ := fun _ h => h

def newcomer : Browser Unit where
  cookies := [("theme", "dark")]
  world := .fresh ()
  past := []

/-- A login, the return from it, and the same return once more. -/
def replay : List (Visit Unit) :=
  [plainVisit "/login" none,
    plainVisit "/auth/callback" (some "code=abc&state=AAAAAAAAAAAAAAAAAAAAAA"),
    plainVisit "/auth/callback" (some "code=abc&state=AAAAAAAAAAAAAAAAAAAAAA")]

/-- The return gives a session once. -/
theorem replay_gives_one_session :
    (∀ c ∈ newcomer.cookies, Foreign c) ∧ newcomer.past = [] ∧
      (consumed (browse {} newcomer replay).past).Nodup ∧
      consumed (browse {} newcomer replay).past = ["AAAAAAAAAAAAAAAAAAAAAA"] := by
  have clean : ∀ c ∈ newcomer.cookies, Foreign c := by decide
  have told : issued (browse {} newcomer replay).past = ["AAAAAAAAAAAAAAAAAAAAAA"] ∧
      consumed (browse {} newcomer replay).past = ["AAAAAAAAAAAAAAAAAAAAAA"] := by decide +kernel
  obtain ⟨-, once⟩ := session_needs_latest_state {} newcomer clean rfl replay
  exact ⟨clean, rfl, once (told.1 ▸ List.nodup_singleton _), told.2⟩

end Gatehouse.App
