import Gatehouse.Proofs.Limit.Workspace

/-!
Limiters in a stack.

A request goes down a stack of limiters of both kinds, the outermost first. One
that has no store or no key lets it pass, and so does one whose store does not say
its number; one that counts it lets it pass up to its cap (`Descends`). On the way
back every limiter that counted the request looks at what the inner ones told, and
tells of its own window only if that is tighter.

* `Descends.answers`: what refuses a request is told by the response, whatever the
  limiters around it counted.
* `Descends.forwards`: what lets a request through tells of the tightest window
  (`Tightest`), or of none if none counted it.
* `headers_of_stack` puts both together for any stack and any state of the stores.
-/

namespace Gatehouse

open Http

/-- The response tells of no limit. -/
def Http.Response.Untold (response : Response) : Prop :=
  ∀ name ∈ Limit.limiterHeaders, response.headers.getAll name = []

namespace Limit

variable {ω : Type}

/-! ### What a response tells of a window -/

namespace Window

/-- The three numbers of the window, each of them once. -/
structure IsTold (win : Window) (response : Response) : Prop where
  limit : response.headers.getAll limitHeader = [numeral win.cap]
  remaining : response.headers.getAll remainingHeader = [numeral win.remaining]
  reset : response.headers.getAll resetHeader = [numeral win.resetAt]

variable {win other : Window} {response : Response}

theorem isTold_writeHeaders (win : Window) (response : Response) :
    win.IsTold (response.mapHeaders win.writeHeaders) := by
  obtain ⟨limit, remaining, reset⟩ := win.getAll_writeHeaders response.headers
  exact ⟨limit, remaining, reset⟩

/-- Where nothing is told, the window is. -/
theorem isTold_tell_of_untold (untold : response.Untold) :
    win.IsTold (response.mapHeaders win.tell) := by
  have nothing := untold remainingHeader (by decide)
  rw [Response.mapHeaders, win.tell_eq_writeHeaders _ nothing]
  exact win.isTold_writeHeaders response

/-- A window that is as tight or tighter stays told. -/
theorem IsTold.tell_of_le (told : other.IsTold response)
    (word : other.remaining ≤ Text.Decimal.max64) (le : other.remaining ≤ win.remaining) :
    response.mapHeaders win.tell = response := by
  rw [Response.mapHeaders, tell, told?_of_getAll told.remaining word]
  simp only [if_pos le]

/-- A window that is less tight is told no more. -/
theorem IsTold.tell_of_lt (told : other.IsTold response)
    (word : other.remaining ≤ Text.Decimal.max64) (lt : win.remaining < other.remaining) :
    win.IsTold (response.mapHeaders win.tell) := by
  rw [Response.mapHeaders, tell, told?_of_getAll told.remaining word]
  simp only [if_neg (Nat.not_le.mpr lt)]
  exact win.isTold_writeHeaders response

theorem getAll_retry_tell (win : Window) (response : Response) :
    (response.mapHeaders win.tell).headers.getAll retryHeader =
      response.headers.getAll retryHeader :=
  win.getAll_tell_of_ne response.headers (by decide) (by decide) (by decide)

theorem remaining_le_cap (win : Window) : win.remaining ≤ win.cap :=
  Nat.sub_le win.cap win.count

theorem remaining_of_past (past : win.cap < win.count) : win.remaining = 0 :=
  Nat.sub_eq_zero_of_le (Nat.le_of_lt past)

end Window

/-! ### Stacks -/

/-- A limiter of either kind. -/
inductive Guard (ω : Type) where
  | requests (l : Limiter ω)
  | workspaces (l : WorkspaceLimiter ω)

namespace Guard

/-- The limiter as a layer. -/
def layer : Guard ω → Layer ω
  | requests l => l.guard
  | workspaces l => l.guard

/-- What it counts by, up to which number, and where. -/
def rule : Guard ω → Limiter ω
  | requests l => l
  | workspaces l => l.asLimiter

theorem layer_eq (g : Guard ω) : g.layer = g.rule.guard := by
  cases g with
  | requests l => rfl
  | workspaces l => exact l.guard_eq

end Guard

/-- Limiters around each other, the first one outermost. -/
def stack (guards : List (Guard ω)) : Layer ω :=
  fun next => guards.foldr Guard.layer next

/-- The way of a request down a stack: the limiters that count it and let it pass, with
the windows that they count it in; the limiter that refuses it, if one does; and the world
below all limiters that it passes. -/
inductive Descends (r : Request) : List (Guard ω) → World ω → List (Guard ω × Window) →
    Option (Guard ω × Window) → World ω → Prop where
  | arrives {w : World ω} : Descends r [] w [] none w
  | idle {g : Guard ω} {guards : List (Guard ω)} {w after : World ω}
      {counted : List (Guard ω × Window)} {refusal : Option (Guard ω × Window)} :
      g.rule.store = none ∨ g.rule.keyFor r = none → Descends r guards w counted refusal after →
      Descends r (g :: guards) w counted refusal after
  | fails {g : Guard ω} {guards : List (Guard ω)} {w inner after : World ω} {store : Store ω}
      {key : String} {fault : StoreFault} {counted : List (Guard ω × Window)}
      {refusal : Option (Guard ω × Window)} :
      g.rule.store = some store → g.rule.keyFor r = some key →
      check store g.rule.deadline key (g.rule.capFor r) g.rule.window w = (.error fault, inner) →
      Descends r guards (Act.record g.rule.metered Metrics.recordStoreFault inner).2 counted refusal
        after →
      Descends r (g :: guards) w counted refusal after
  | counts {g : Guard ω} {guards : List (Guard ω)} {w inner after : World ω} {store : Store ω}
      {key : String} {win : Window} {counted : List (Guard ω × Window)}
      {refusal : Option (Guard ω × Window)} :
      g.rule.store = some store → g.rule.keyFor r = some key →
      check store g.rule.deadline key (g.rule.capFor r) g.rule.window w = (.ok win, inner) →
      win.count ≤ win.cap → Descends r guards inner counted refusal after →
      Descends r (g :: guards) w ((g, win) :: counted) refusal after
  | refuses {g : Guard ω} {guards : List (Guard ω)} {w inner : World ω} {store : Store ω}
      {key : String} {win : Window} :
      g.rule.store = some store → g.rule.keyFor r = some key →
      check store g.rule.deadline key (g.rule.capFor r) g.rule.window w = (.ok win, inner) →
      win.cap < win.count →
      Descends r (g :: guards) w [] (some (g, win))
        (Act.record g.rule.metered (Metrics.recordRejection g.rule.name) inner).2

/-- Of the windows, outermost first, this one has the least left, and of those with as
little it is the innermost. -/
def Tightest (counted : List (Guard ω × Window)) (e : Guard ω × Window) : Prop :=
  ∃ front back, counted = front ++ e :: back ∧ (∀ o ∈ front, e.2.remaining ≤ o.2.remaining) ∧
    ∀ o ∈ back, e.2.remaining < o.2.remaining

section Descends

variable {r : Request} {guards : List (Guard ω)} {w after : World ω}
  {counted : List (Guard ω × Window)} {refusal : Option (Guard ω × Window)} {e : Guard ω × Window}

/-- Every request has its way down a stack. -/
theorem exists_descends (r : Request) (guards : List (Guard ω)) (w : World ω) :
    ∃ counted refusal after, Descends r guards w counted refusal after := by
  induction guards generalizing w with
  | nil => exact ⟨[], none, w, .arrives⟩
  | cons g guards ih =>
      cases g.rule.settles r w with
      | idle uncounted _ =>
          obtain ⟨counted, refusal, after, below⟩ := ih w
          exact ⟨counted, refusal, after, .idle uncounted below⟩
      | fault has keyed checked _ =>
          obtain ⟨counted, refusal, after, below⟩ := ih _
          exact ⟨counted, refusal, after, .fails has keyed checked below⟩
      | within has keyed checked within _ =>
          obtain ⟨counted, refusal, after, below⟩ := ih _
          exact ⟨_, refusal, after, .counts has keyed checked within below⟩
      | past has keyed checked past _ => exact ⟨[], _, _, .refuses has keyed checked past⟩

/-- A window is told with the cap of its limiter. -/
theorem cap_of_check {store : Store ω} {deadline window : Span} {key : String} {cap : Nat}
    {win : Window} {inner : World ω}
    (h : check store deadline key cap window w = (.ok win, inner)) : win.cap = cap := by
  rcases check_cases store deadline key cap window w with
    ⟨win', -, capped, checked⟩ | ⟨-, fault, checked⟩
  · rw [h] at checked
    cases checked
    exact capped
  · rw [h] at checked
    cases checked

/-- What is counted or refused is a limiter of the stack, with its own cap. -/
theorem Descends.cap_eq (h : Descends r guards w counted refusal after)
    (mem : e ∈ counted ∨ refusal = some e) : e.1 ∈ guards ∧ e.2.cap = e.1.rule.capFor r := by
  induction h with
  | arrives => rcases mem with mem | mem <;> cases mem
  | idle _ _ ih => exact (ih mem).imp_left (List.mem_cons_of_mem _)
  | fails _ _ _ _ ih => exact (ih mem).imp_left (List.mem_cons_of_mem _)
  | counts _ _ checked _ _ ih =>
      rcases mem with mem | mem
      · rcases List.mem_cons.mp mem with rfl | mem
        · exact ⟨List.mem_cons_self, cap_of_check checked⟩
        · exact (ih (.inl mem)).imp_left (List.mem_cons_of_mem _)
      · exact (ih (.inr mem)).imp_left (List.mem_cons_of_mem _)
  | refuses _ _ checked _ =>
      rcases mem with mem | mem
      · cases mem
      · cases mem
        exact ⟨List.mem_cons_self, cap_of_check checked⟩

theorem stack_cons (g : Guard ω) (guards : List (Guard ω)) (next : Handler ω) :
    stack (g :: guards) next = g.layer (stack guards next) := rfl

/-- A stack answers whatever its outermost limiter does with what the inner ones answer. -/
theorem answers_of_forwards {g : Guard ω} {inner : World ω} {f : Response → Response}
    {response : Response} (outer : g.layer.Forwards r w r inner f)
    (below : (stack guards).Answers r inner response after) :
    (stack (g :: guards)).Answers r w (f response) after := by
  intro next
  rw [stack_cons, outer, below]

theorem forwards_of_forwards {g : Guard ω} {inner : World ω} {f f' : Response → Response}
    (outer : g.layer.Forwards r w r inner f)
    (below : (stack guards).Forwards r inner r after f') :
    (stack (g :: guards)).Forwards r w r after (f ∘ f') := by
  intro next
  rw [stack_cons, outer, below]
  rfl

theorem forwards_of_idle {g : Guard ω} (idle : g.rule.store = none ∨ g.rule.keyFor r = none) :
    g.layer.Forwards r w r w id := by
  rw [g.layer_eq]
  exact Layer.forwards_id (g.rule.guard_of_uncounted r w idle)

theorem forwards_of_gate {g : Guard ω} {store : Store ω} {key : String} {inner : World ω}
    {f : Response → Response} (has : g.rule.store = some store) (keyed : g.rule.keyFor r = some key)
    (gate : (g.rule.gate store key).Forwards r w r inner f) : g.layer.Forwards r w r inner f := by
  rw [g.layer_eq]
  intro next
  rw [g.rule.guard_of_counted r w has keyed, gate]

theorem answers_of_past {g : Guard ω} {store : Store ω} {key : String} {inner : World ω}
    {win : Window} (has : g.rule.store = some store) (keyed : g.rule.keyFor r = some key)
    (checked : check store g.rule.deadline key (g.rule.capFor r) g.rule.window w = (.ok win, inner))
    (past : win.cap < win.count) :
    (stack (g :: guards)).Answers r w (g.rule.reject r win)
      (Act.record g.rule.metered (Metrics.recordRejection g.rule.name) inner).2 := by
  intro next
  rw [stack_cons, g.layer_eq, g.rule.guard_of_counted r w has keyed]
  exact g.rule.gate_of_past r w checked past _

/-- What refuses the request is told of: no limiter around it has less left. -/
theorem Descends.answers (h : Descends r guards w counted refusal after) {e : Guard ω × Window}
    (refused : refusal = some e) :
    e.2.remaining = 0 ∧ ∃ response, (stack guards).Answers r w response after ∧
      e.2.IsTold response ∧
        response.headers.getAll retryHeader = [Window.numeral e.2.retryAfter] := by
  induction h with
  | arrives => cases refused
  | idle uncounted _ ih =>
      obtain ⟨empty, response, answers, told⟩ := ih refused
      exact ⟨empty, response, answers_of_forwards (forwards_of_idle uncounted) answers, told⟩
  | @fails g _ w _ _ _ _ _ _ _ has keyed checked _ ih =>
      obtain ⟨empty, response, answers, told⟩ := ih refused
      have forwards := forwards_of_gate has keyed (g.rule.gate_of_error r w checked)
      exact ⟨empty, response, answers_of_forwards forwards answers, told⟩
  | @counts g _ w _ _ _ _ win _ _ has keyed checked within _ ih =>
      obtain ⟨empty, response, answers, told, retry⟩ := ih refused
      have forwards := forwards_of_gate has keyed (g.rule.gate_of_within r w checked within)
      have unchanged : response.mapHeaders win.tell = response :=
        told.tell_of_le (empty ▸ Nat.zero_le _) (empty ▸ Nat.zero_le _)
      rw [← unchanged] at told retry
      exact ⟨empty, _, answers_of_forwards forwards answers, told, retry⟩
  | @refuses g guards w inner _ _ win has keyed checked past =>
      cases refused
      have answers : (stack (g :: guards)).Answers r w _ _ :=
        answers_of_past has keyed checked past
      obtain ⟨limit, remaining, reset, retry⟩ := win.getAll_tellRejected _
      exact ⟨Window.remaining_of_past past, _, answers, ⟨limit, remaining, reset⟩, retry⟩

/-! ### The tightest window -/

theorem tightest_singleton (e : Guard ω × Window) : Tightest [e] e :=
  ⟨[], [], rfl, nofun, nofun⟩

theorem Tightest.mem (h : Tightest counted e) : e ∈ counted := by
  obtain ⟨front, back, rfl, -, -⟩ := h
  exact List.mem_append_right front List.mem_cons_self

/-- A window around others is the tightest if they all have more left; else it does not
matter. -/
theorem tightest_cons_iff {o : Guard ω × Window} :
    Tightest (o :: counted) e ↔
      (Tightest counted e ∧ e.2.remaining ≤ o.2.remaining) ∨
        (e = o ∧ ∀ other ∈ counted, o.2.remaining < other.2.remaining) := by
  constructor
  · rintro ⟨_ | ⟨first, front⟩, back, whole, before, behind⟩
    · obtain ⟨rfl, rfl⟩ := List.cons.inj whole
      exact .inr ⟨rfl, behind⟩
    · obtain ⟨rfl, rfl⟩ := List.cons.inj whole
      obtain ⟨le, before⟩ := List.forall_mem_cons.mp before
      exact .inl ⟨⟨front, back, rfl, before, behind⟩, le⟩
  · rintro (⟨⟨front, back, rfl, before, behind⟩, le⟩ | ⟨rfl, behind⟩)
    · exact ⟨o :: front, back, rfl, List.forall_mem_cons.mpr ⟨le, before⟩, behind⟩
    · exact ⟨[], counted, rfl, nofun, behind⟩

theorem Tightest.le (h : Tightest counted e) {o : Guard ω × Window} (mem : o ∈ counted) :
    e.2.remaining ≤ o.2.remaining := by
  obtain ⟨front, back, rfl, before, behind⟩ := h
  rcases List.mem_append.mp mem with mem | mem
  · exact before o mem
  · rcases List.mem_cons.mp mem with rfl | mem
    · exact Nat.le_refl _
    · exact Nat.le_of_lt (behind o mem)

/-- Windows have one tightest among them. -/
theorem Tightest.unique {e' : Guard ω × Window} (h : Tightest counted e)
    (h' : Tightest counted e') : e = e' := by
  induction counted with
  | nil => exact absurd h.mem List.not_mem_nil
  | cons o counted ih =>
      rcases tightest_cons_iff.mp h with ⟨inside, le⟩ | ⟨rfl, behind⟩ <;>
        rcases tightest_cons_iff.mp h' with ⟨inside', le'⟩ | ⟨rfl, behind'⟩
      · exact ih inside inside'
      · exact absurd le (Nat.not_le.mpr (behind' e inside.mem))
      · exact absurd le' (Nat.not_le.mpr (behind e' inside'.mem))
      · rfl

/-- The response tells of the tightest of the windows, of none if there are none, and never
to wait. -/
structure Reports (counted : List (Guard ω × Window)) (response : Response) : Prop where
  untold : counted = [] → response.Untold
  told : counted ≠ [] → ∃ e, Tightest counted e ∧ e.2.IsTold response
  retry : response.headers.getAll retryHeader = []

theorem reports_of_untold {response : Response} (untold : response.Untold) :
    Reports ([] : List (Guard ω × Window)) response where
  untold _ := untold
  told filled := absurd rfl filled
  retry := untold retryHeader (by decide)

/-- One more limiter around others that counted the request. -/
theorem Reports.tell {response : Response} (h : Reports counted response)
    (words : ∀ o ∈ counted, o.2.remaining ≤ Text.Decimal.max64) (g : Guard ω) (win : Window) :
    Reports ((g, win) :: counted) (response.mapHeaders win.tell) := by
  refine ⟨nofun, fun _ => ?_, (win.getAll_retry_tell response).trans h.retry⟩
  by_cases nothing : counted = []
  · subst nothing
    exact ⟨_, tightest_singleton (g, win), Window.isTold_tell_of_untold (h.untold rfl)⟩
  · obtain ⟨e, tightest, told⟩ := h.told nothing
    have word := words e tightest.mem
    by_cases le : e.2.remaining ≤ win.remaining
    · exact ⟨e, tightest_cons_iff.mpr (.inl ⟨tightest, le⟩), (told.tell_of_le word le).symm ▸ told⟩
    · have lt := Nat.lt_of_not_le le
      have least : ∀ o ∈ counted, win.remaining < o.2.remaining :=
        fun o mem => Nat.lt_of_lt_of_le lt (tightest.le mem)
      exact ⟨(g, win), tightest_cons_iff.mpr (.inr ⟨rfl, least⟩), told.tell_of_lt word lt⟩

/-- What no limiter refuses is passed to the handler, and the response tells of the tightest
window. -/
theorem Descends.forwards (h : Descends r guards w counted refusal after)
    (words : ∀ g ∈ guards, g.rule.capFor r ≤ Text.Decimal.max64) (passed : refusal = none) :
    ∃ f, (stack guards).Forwards r w r after f ∧
      ∀ response : Response, response.Untold → Reports counted (f response) := by
  induction h with
  | arrives => exact ⟨id, fun _ => rfl, fun _ untold => reports_of_untold untold⟩
  | idle uncounted _ ih =>
      obtain ⟨f, forwards, reports⟩ := ih (fun g mem => words g (List.mem_cons_of_mem _ mem)) passed
      exact ⟨_, forwards_of_forwards (forwards_of_idle uncounted) forwards, reports⟩
  | @fails g _ w _ _ _ _ _ _ _ has keyed checked _ ih =>
      obtain ⟨f, forwards, reports⟩ := ih (fun g mem => words g (List.mem_cons_of_mem _ mem)) passed
      have outer := forwards_of_gate has keyed (g.rule.gate_of_error r w checked)
      exact ⟨_, forwards_of_forwards outer forwards, reports⟩
  | @counts g guards w _ _ _ _ win counted _ has keyed checked within below ih =>
      obtain ⟨f, forwards, reports⟩ := ih (fun g mem => words g (List.mem_cons_of_mem _ mem)) passed
      have outer := forwards_of_gate has keyed (g.rule.gate_of_within r w checked within)
      have small : ∀ o ∈ counted, o.2.remaining ≤ Text.Decimal.max64 := by
        intro o mem
        obtain ⟨inside, cap⟩ := below.cap_eq (.inl mem)
        exact Nat.le_trans (cap ▸ o.2.remaining_le_cap) (words o.1 (List.mem_cons_of_mem _ inside))
      exact ⟨_, forwards_of_forwards outer forwards,
        fun response untold => (reports response untold).tell small g win⟩
  | refuses => cases passed

end Descends

/-- **A response tells of one limiter of a stack: of the one that refuses, else of the
tightest.** Around a handler that tells of no limit, whatever the stores reply: a request that
is refused never reaches the handler, and the response has the cap of the limiter that refused
it, nothing remaining, the reset and the time to wait of its window. A request that nobody
refuses reaches the handler once, and the response has no time to wait; if any limiter counted
the request, it has cap, remaining requests and reset of the tightest window, else no such
header at all. Caps are numbers of 64 bits. -/
theorem headers_of_stack (guards : List (Guard ω)) {r : Request}
    (words : ∀ g ∈ guards, g.rule.capFor r ≤ Text.Decimal.max64) {next : Handler ω}
    (plain : ∀ r w, (next r w).1.Untold) (w : World ω) :
    (∃ counted refusal after, Descends r guards w counted refusal after) ∧
      ∀ counted refusal after, Descends r guards w counted refusal after →
        let response := (stack guards next r w).1
        (∀ e ∈ counted ++ refusal.toList, e.1 ∈ guards ∧ e.2.cap = e.1.rule.capFor r) ∧
          (∀ g win, refusal = some (g, win) →
            (stack guards).Answers r w response after ∧ win.IsTold response ∧ win.remaining = 0 ∧
              response.headers.getAll retryHeader = [Window.numeral win.retryAfter]) ∧
          (refusal = none →
            (∃ f, (stack guards).Forwards r w r after f) ∧
              response.headers.getAll retryHeader = [] ∧
              (counted = [] → response.Untold) ∧
              (counted ≠ [] → ∃ g win, Tightest counted (g, win) ∧ win.IsTold response)) := by
  refine ⟨exists_descends r guards w, fun counted refusal after descends => ?_⟩
  refine ⟨fun e mem => ?_, fun g win refused => ?_, fun passed => ?_⟩
  · exact descends.cap_eq ((List.mem_append.mp mem).imp_right Option.mem_toList.mp)
  · obtain ⟨empty, response, answers, told, retry⟩ := descends.answers refused
    rw [answers next]
    exact ⟨answers, told, empty, retry⟩
  · obtain ⟨f, forwards, reports⟩ := descends.forwards words passed
    rw [forwards next]
    obtain ⟨untold, told, retry⟩ := reports _ (plain r after)
    refine ⟨⟨f, forwards⟩, retry, untold, fun filled => ?_⟩
    obtain ⟨e, tightest, shown⟩ := told filled
    exact ⟨e.1, e.2, tightest, shown⟩

/-- A store that always gives the same reply, with five seconds left. -/
def steadyStore (reply : Reply String Nat) : Store Unit where
  increment _ _ _ w := (reply, w)
  count _ _ w := (reply, w)
  ttl _ _ w := (.ready (Span.seconds 5), w)

/-- A limiter of all requests over a steady store. -/
def steadyLimiter (limit : Nat) (reply : Reply String Nat) : Limiter Unit :=
  { limit, window := Span.seconds 10, key := .everything, store := some (steadyStore reply) }

/-- A request for the root path of a workspace that was found out. -/
def workspaceVisit : Request :=
  { method := "GET", target := ⟨none, none, "/", none⟩, headers := [],
    context := { workspace := some ⟨Vector.replicate 32 (Fin.last 15)⟩ } }

/-- Two of four, two of four again, a store that fails and a limiter without a store. -/
def steadyStack : List (Guard Unit) :=
  [.requests (steadyLimiter 4 (.ready 2)),
    .workspaces { store := some (steadyStore (.ready 1)), limit := 3, window := Span.seconds 10 },
    .requests (steadyLimiter 1 (.failed "connection refused")),
    .requests { steadyLimiter 1 (.ready 2) with store := none }]

/-- The windows in which the stack counts its first request. -/
def steadyWindows : List (Guard Unit × Window) :=
  [(steadyStack[0], ⟨2, 4, Span.seconds 5, 5⟩), (steadyStack[1], ⟨1, 3, Span.seconds 5, 5⟩)]

/-- A handler that tells of no limit. -/
def untoldHandler : Handler Unit := fun _ w => (Response.bare 200, w)

/-- Of two windows with as much left, the inner one is told. -/
theorem inner_of_ties_is_told :
    (∀ g ∈ steadyStack, g.rule.capFor workspaceVisit ≤ Text.Decimal.max64) ∧
      (∀ r w, (untoldHandler r w).1.Untold) ∧
      (stack steadyStack untoldHandler workspaceVisit (.fresh ())).1.headers.getAll limitHeader =
        [Window.numeral 3] := by
  have words : ∀ g ∈ steadyStack, g.rule.capFor workspaceVisit ≤ Text.Decimal.max64 := by decide
  have plain : ∀ r w, (untoldHandler r w).1.Untold := fun _ _ _ _ => rfl
  have way : Descends workspaceVisit steadyStack (World.fresh ()) steadyWindows none
      (World.fresh ()) :=
    .counts rfl rfl rfl (by decide) (.counts rfl rfl rfl (by decide)
      (.fails rfl rfl rfl (.idle (.inl rfl) .arrives)))
  obtain ⟨-, reads⟩ := headers_of_stack steadyStack words plain (World.fresh ())
  obtain ⟨g, win, tightest, told⟩ := ((reads _ _ _ way).2.2 rfl).2.2.2 nofun
  have inner : Tightest steadyWindows steadyWindows[1] :=
    tightest_cons_iff.mpr (.inl ⟨tightest_singleton _, by decide⟩)
  obtain ⟨rfl, rfl⟩ := Prod.mk.inj (tightest.unique inner)
  exact ⟨words, plain, told.limit⟩

end Limit

end Gatehouse
