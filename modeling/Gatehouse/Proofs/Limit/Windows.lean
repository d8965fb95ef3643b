import Gatehouse.Proofs.Limit.FixedWindow
import Mathlib.Data.List.TakeWhile

/-!
What comes in, cut into windows.

The requests of a key, taken in their order, fall into windows by their times
alone: the first opens a window, those before its end belong to it, and the next
one opens another (`windows`). Here these parts are brought together with the
account that a limiter keeps one request at a time (`Period.arrive`).

* `map_number_of_mem_windows`: the requests of a window are numbered from one on,
  in their order.
* `countP_number_le`: a cap lets through as many of a window as it is long, or
  all.
* `countP_picks_le_of_head`, `countP_picks_le_two_mul`: a span as long as a window
  takes in one of them if it begins with it, and two at most wherever it begins.
-/

namespace Gatehouse.Limit

section Windows

variable {α β : Type} (time : α → Instant) (window : Span)

/-- A list cut into windows: its head opens one, which those join that come before
its end, and the first one after them opens the next. -/
def windows : List α → List (List α)
  | [] => []
  | x :: rest =>
      (x :: rest.takeWhile fun y => time y < time x + window) ::
        windows (rest.dropWhile fun y => time y < time x + window)
termination_by l => l.length
decreasing_by exact Nat.lt_succ_of_le (List.dropWhile_sublist _).length_le

@[simp] theorem windows_nil : windows time window [] = [] := by
  rw [windows]

theorem windows_cons (x : α) (rest : List α) :
    windows time window (x :: rest) =
      (x :: rest.takeWhile fun y => time y < time x + window) ::
        windows time window (rest.dropWhile fun y => time y < time x + window) := by
  rw [windows]

/-- Nothing is lost between two windows. -/
theorem flatten_windows (l : List α) : (windows time window l).flatten = l := by
  fun_induction windows time window l with
  | case1 => rfl
  | case2 x rest ih =>
      rw [List.flatten_cons, ih, List.cons_append, List.takeWhile_append_dropWhile]

/-- The windows of a list depend on its times only. -/
theorem windows_map (f : β → α) (l : List β) :
    windows time window (l.map f) = (windows (fun x => time (f x)) window l).map (List.map f) := by
  fun_induction windows (fun x => time (f x)) window l with
  | case1 => simp
  | case2 x rest ih =>
      rw [List.map_cons, windows_cons, List.takeWhile_map, List.dropWhile_map]
      simp only [Function.comp_def, List.map_cons, ih]

end Windows

/-! ### Numbers -/

section Numbers

variable {α : Type} (clock : α → Clock) (number : α → Nat) (window : Span)

/-- Each number is that of a request in the window that it counts in, when the
last window before the list is the given one. -/
def Numbered : Option Period → List α → Prop
  | _, [] => True
  | last, x :: rest =>
      number x = (Period.arrive window last (clock x)).count ∧
        Numbered (some (Period.arrive window last (clock x))) rest

variable {clock number window} {p : Period} {last : Option Period} {l : List α}

theorem Period.after_snoc (window : Span) (last : Option Period) (arrivals : List Clock)
    (c : Clock) :
    Period.after window last (arrivals ++ [c]) =
      some (Period.arrive window (Period.after window last arrivals) c) := by
  rw [Period.after, List.foldl_append]
  rfl

theorem numbered_snoc {x : α} (h : Numbered clock number window last l)
    (counted : number x =
      (Period.arrive window (Period.after window last (l.map clock)) (clock x)).count) :
    Numbered clock number window last (l ++ [x]) := by
  induction l generalizing last with
  | nil => exact ⟨counted, trivial⟩
  | cons y rest ih => exact ⟨h.1, ih h.2 counted⟩

theorem Period.after_append (window : Span) (last : Option Period) (arrivals later : List Clock) :
    Period.after window last (arrivals ++ later) =
      Period.after window (Period.after window last arrivals) later := by
  rw [Period.after, Period.after, Period.after, List.foldl_append]

/-- Numbers go on behind the last window of those before. -/
theorem Numbered.append {l' : List α} (h : Numbered clock number window last l)
    (h' : Numbered clock number window (Period.after window last (l.map clock)) l') :
    Numbered clock number window last (l ++ l') := by
  induction l generalizing last with
  | nil => exact h'
  | cons x rest ih => exact ⟨h.1, ih h.2 h'⟩

theorem Numbered.congr {number' : α → Nat} (h : Numbered clock number window last l)
    (same : ∀ x ∈ l, number' x = number x) : Numbered clock number' window last l := by
  induction l generalizing last with
  | nil => trivial
  | cons x rest ih =>
      obtain ⟨counted, others⟩ := h
      refine ⟨?_, ih others fun y hy => same y (List.mem_cons_of_mem _ hy)⟩
      rw [same x List.mem_cons_self, counted]

/-- Requests before the end of the last window count on in it, and behind them
nothing of it is left. -/
theorem Numbered.split (h : Numbered clock number window (some p) l) :
    let early := l.takeWhile fun x => (clock x).now < p.endsAt window
    early.map number = List.range' (p.count + 1) early.length ∧
      Numbered clock number window none
        (l.dropWhile fun x => (clock x).now < p.endsAt window) := by
  induction l generalizing p with
  | nil => exact ⟨rfl, trivial⟩
  | cons x rest ih =>
      obtain ⟨counted, others⟩ := h
      by_cases early : (clock x).now < p.endsAt window
      · rw [Period.arrive, if_pos early] at counted others
        obtain ⟨numbers, late⟩ := ih others
        have same : ({ p with count := p.count + 1 } : Period).endsAt window =
            p.endsAt window := rfl
        rw [same] at numbers late
        rw [List.takeWhile_cons_of_pos (by simpa using early),
          List.dropWhile_cons_of_pos (by simpa using early)]
        refine ⟨?_, late⟩
        rw [List.map_cons, List.length_cons, List.range'_succ, counted, numbers]
      · rw [List.takeWhile_cons_of_neg (by simpa using early),
          List.dropWhile_cons_of_neg (by simpa using early)]
        rw [Period.arrive, if_neg early] at counted others
        exact ⟨rfl, counted, others⟩

/-- **The requests of a window are numbered from one on, in their order.** -/
theorem map_number_of_mem_windows (h : Numbered clock number window none l) {g : List α}
    (mem : g ∈ windows (fun x => (clock x).now) window l) :
    g.map number = List.range' 1 g.length := by
  fun_induction windows (fun x => (clock x).now) window l with
  | case1 => simp at mem
  | case2 x rest ih =>
      obtain ⟨counted, others⟩ := h
      obtain ⟨numbers, late⟩ := others.split
      rcases List.mem_cons.mp mem with rfl | later
      · rw [List.map_cons, List.length_cons, List.range'_succ, counted]
        exact congrArg (1 :: ·) numbers
      · exact ih late later

/-- Of numbers from one on, as many are within a cap as there are, up to the cap. -/
theorem countP_range' (start length cap : Nat) :
    (List.range' start length).countP (fun n => n ≤ cap) = min length (cap + 1 - start) := by
  induction length generalizing start with
  | zero => simp
  | succ length ih =>
      rw [List.range'_succ, List.countP_cons, ih]
      by_cases within : start ≤ cap
      · simp only [within, decide_true, if_true]
        omega
      · simp only [within, decide_false, Bool.false_eq_true, if_false]
        omega

/-- A cap lets through the requests of a window up to the cap. -/
theorem countP_number_le {g : List α} (numbers : g.map number = List.range' 1 g.length)
    (cap : Nat) : g.countP (fun x => number x ≤ cap) = min g.length cap := by
  have counts := countP_range' 1 g.length cap
  rw [← numbers, List.countP_map] at counts
  exact counts

end Numbers

/-! ### Spans as long as a window -/

section Spans

variable {α : Type} {time : α → Instant} {window : Span} {start limit : Instant} {cap : Nat}
  {p : α → Bool} {x : α} {l rest : List α}

/-- What satisfies a condition and comes in the span of one window from `start`. -/
def picks (p : α → Bool) (time : α → Instant) (window : Span) (start : Instant) (x : α) : Bool :=
  p x && (start ≤ time x && time x < start + window)

theorem picks_iff :
    picks p time window start x = true ↔
      p x = true ∧ start ≤ time x ∧ time x < start + window := by
  simp [picks]

theorem countP_picks_le (l : List α) : l.countP (picks p time window start) ≤ l.countP p :=
  List.countP_mono_left fun _ _ picked => (picks_iff.mp picked).1

theorem countP_picks_of_late (late : ∀ y ∈ l, start + window ≤ time y) :
    l.countP (picks p time window start) = 0 := by
  refine List.countP_eq_zero.mpr fun y hy => ?_
  intro picked
  obtain ⟨-, -, inside⟩ := picks_iff.mp picked
  exact absurd inside (Nat.not_lt.mpr (late y hy))

theorem countP_picks_of_early (early : ∀ y ∈ l, time y < start) :
    l.countP (picks p time window start) = 0 := by
  refine List.countP_eq_zero.mpr fun y hy => ?_
  intro picked
  obtain ⟨-, inside, -⟩ := picks_iff.mp picked
  exact absurd inside (Nat.not_le.mpr (early y hy))

/-- A count over a list is that over what comes before a limit and over the rest. -/
theorem countP_cons_split (q : α → Bool) (x : α) (rest : List α) (limit : Instant) :
    (x :: rest).countP q =
      (x :: rest.takeWhile fun y => time y < limit).countP q +
        (rest.dropWhile fun y => time y < limit).countP q := by
  rw [← List.countP_append, List.cons_append, List.takeWhile_append_dropWhile]

theorem le_of_mem_dropWhile (sorted : l.Pairwise fun x y => time x ≤ time y) {y : α}
    (hy : y ∈ l.dropWhile fun x => time x < limit) : limit ≤ time y := by
  induction l with
  | nil => simp at hy
  | cons x rest ih =>
      obtain ⟨first, others⟩ := List.pairwise_cons.mp sorted
      by_cases early : time x < limit
      · rw [List.dropWhile_cons_of_pos (by simpa using early)] at hy
        exact ih others hy
      · rw [List.dropWhile_cons_of_neg (by simpa using early)] at hy
        have late := Nat.le_of_not_lt early
        rcases List.mem_cons.mp hy with rfl | hy
        · exact late
        · exact Nat.le_trans late (first y hy)

section Cons

variable (sorted : (x :: rest).Pairwise fun y z => time y ≤ time z)

include sorted

theorem sorted_dropWhile :
    (rest.dropWhile fun y => time y < limit).Pairwise fun y z => time y ≤ time z :=
  (List.pairwise_cons.mp sorted).2.sublist (List.dropWhile_sublist _)

theorem le_of_mem_behind {y : α} (hy : y ∈ rest.dropWhile fun y => time y < limit) :
    limit ≤ time y :=
  le_of_mem_dropWhile (List.pairwise_cons.mp sorted).2 hy

/-- A window that has ended by the start of a span adds nothing to it. -/
theorem countP_picks_of_ended (open_ : 0 < window) (ended : time x + window ≤ start) :
    (x :: rest).countP (picks p time window start) =
      (rest.dropWhile fun y => time y < time x + window).countP (picks p time window start) := by
  have early : ∀ y ∈ x :: rest.takeWhile fun y => time y < time x + window, time y < start := by
    intro y hy
    rcases List.mem_cons.mp hy with rfl | hy
    · exact Nat.lt_of_lt_of_le (Nat.lt_add_of_pos_right open_) ended
    · have inside : time y < time x + window := by simpa using List.mem_takeWhile_imp hy
      exact Nat.lt_of_lt_of_le inside ended
  rw [countP_cons_split _ x rest (time x + window), countP_picks_of_early early, Nat.zero_add]

end Cons

/-- A span that begins no later than a window takes in no other behind it. -/
theorem countP_picks_le_of_le (sorted : l.Pairwise fun x y => time x ≤ time y)
    (few : ∀ g ∈ windows time window l, g.countP p ≤ cap) (first : ∀ x ∈ l, start ≤ time x) :
    l.countP (picks p time window start) ≤ cap := by
  cases l with
  | nil => exact Nat.zero_le _
  | cons x rest =>
      rw [windows_cons] at few
      have own := few _ List.mem_cons_self
      have behind : ∀ y ∈ rest.dropWhile fun y => time y < time x + window,
          start + window ≤ time y := by
        intro y hy
        have begins := Nat.add_le_add_right (first x List.mem_cons_self) window
        exact Nat.le_trans begins (le_of_mem_behind sorted hy)
      rw [countP_cons_split _ x rest (time x + window), countP_picks_of_late behind]
      exact Nat.le_trans (countP_picks_le _) own

/-- **A span that begins with a window takes in that window only.** -/
theorem countP_picks_le_of_head (sorted : l.Pairwise fun x y => time x ≤ time y)
    (open_ : 0 < window) (few : ∀ g ∈ windows time window l, g.countP p ≤ cap) {g : List α}
    (mem : g ∈ windows time window l) (head : g.head?.map time = some start) :
    l.countP (picks p time window start) ≤ cap := by
  fun_induction windows time window l with
  | case1 => simp at mem
  | case2 x rest ih =>
      rcases List.mem_cons.mp mem with rfl | later
      · obtain rfl : time x = start := by simpa using head
        refine countP_picks_le_of_le sorted (by rwa [windows_cons]) ?_
        intro y hy
        rcases List.mem_cons.mp hy with rfl | hy
        · exact Nat.le_refl _
        · exact (List.pairwise_cons.mp sorted).1 y hy
      · have ended : time x + window ≤ start := by
          obtain ⟨y, hy, rfl⟩ := Option.map_eq_some_iff.mp head
          refine le_of_mem_behind sorted ?_
          rw [← flatten_windows time window (rest.dropWhile _)]
          exact List.mem_flatten.mpr ⟨g, later, List.mem_of_mem_head? hy⟩
        rw [countP_picks_of_ended sorted open_ ended]
        exact ih (sorted_dropWhile sorted) (fun g hg => few g (List.mem_cons_of_mem _ hg)) later

/-- **A span as long as a window takes in two windows at most.** -/
theorem countP_picks_le_two_mul (sorted : l.Pairwise fun x y => time x ≤ time y)
    (open_ : 0 < window) (few : ∀ g ∈ windows time window l, g.countP p ≤ cap)
    (start : Instant) : l.countP (picks p time window start) ≤ 2 * cap := by
  fun_induction windows time window l with
  | case1 => exact Nat.zero_le _
  | case2 x rest ih =>
      have own := few _ List.mem_cons_self
      have others := fun g hg => few g (List.mem_cons_of_mem _ hg)
      by_cases ended : time x + window ≤ start
      · rw [countP_picks_of_ended sorted open_ ended]
        exact ih (sorted_dropWhile sorted) others
      · -- The first window may reach into the span; the next begins after it has begun.
        have first : ∀ y ∈ rest.dropWhile fun y => time y < time x + window, start ≤ time y := by
          intro y hy
          exact Nat.le_trans (Nat.le_of_not_le ended) (le_of_mem_behind sorted hy)
        have behind := countP_picks_le_of_le (sorted_dropWhile sorted) others first
        rw [countP_cons_split _ x rest (time x + window), Nat.two_mul]
        exact Nat.add_le_add (Nat.le_trans (countP_picks_le _) own) behind

end Spans

/-! ### The last window -/

section Last

variable {window : Span} {p : Period} {last : Option Period} {arrivals : List Clock}

/-- After requests that all come before its end, a window is still the last; after
others, what came before them does not matter. -/
theorem Period.after_some (window : Span) (p : Period) (arrivals : List Clock) :
    let late := arrivals.dropWhile fun c => c.now < p.endsAt window
    (late = [] → ∃ n, Period.after window (some p) arrivals = some ⟨p.opened, n⟩) ∧
      (late ≠ [] → Period.after window (some p) arrivals = Period.after window none late) := by
  induction arrivals generalizing p with
  | nil => exact ⟨fun _ => ⟨p.count, rfl⟩, fun filled => absurd rfl filled⟩
  | cons c rest ih =>
      by_cases early : c.now < p.endsAt window
      · have joins : Period.after window (some p) (c :: rest) =
            Period.after window (some { p with count := p.count + 1 }) rest := by
          simp [Period.after, Period.arrive, early]
        rw [joins, List.dropWhile_cons_of_pos (by simpa using early)]
        exact ih { p with count := p.count + 1 }
      · have opens : Period.after window (some p) (c :: rest) =
            Period.after window none (c :: rest) := by
          simp [Period.after, Period.arrive, early]
        rw [opens, List.dropWhile_cons_of_neg (by simpa using early)]
        exact ⟨fun closed => absurd closed (by simp), fun _ => rfl⟩

/-- The last window after some requests is one of the windows of these requests
and any later ones. -/
theorem exists_mem_windows_of_after (later : List Clock)
    (h : Period.after window none arrivals = some p) :
    ∃ g ∈ windows Clock.now window (arrivals ++ later), g.head? = some p.opened := by
  fun_induction windows Clock.now window arrivals with
  | case1 => simp [Period.after] at h
  | case2 c rest ih =>
      have opens : Period.after window none (c :: rest) =
          Period.after window (some ⟨c, 1⟩) rest := rfl
      obtain ⟨still, other⟩ := Period.after_some window ⟨c, 1⟩ rest
      rw [List.cons_append, windows_cons]
      cases late : rest.dropWhile fun d => d.now < c.now + window with
      | nil =>
          obtain ⟨n, same⟩ := still late
          obtain rfl : (⟨c, n⟩ : Period) = p :=
            Option.some.inj (same.symm.trans (opens.symm.trans h))
          exact ⟨_, List.mem_cons_self, rfl⟩
      | cons d ds =>
          have remains : rest.dropWhile (fun d => d.now < c.now + window) ≠ [] := by simp [late]
          rw [opens, other remains] at h
          obtain ⟨g, mem, head⟩ := ih h
          refine ⟨g, List.mem_cons_of_mem _ ?_, head⟩
          rw [List.dropWhile_append, if_neg (by simpa using remains)]
          exact mem

/-- The window that an entry shows is one of those that the numbered requests so far
make, and any later ones. -/
theorem exists_mem_windows_of_shown {α : Type} {clock : α → Clock} {early : List α} {e : Entry}
    {now : Instant} (late : List α)
    (shown : Shows window now (some e) (Period.after window none (early.map clock))) :
    ∃ start, e.expiresAt = start + window ∧
      ∃ g ∈ windows (fun x => (clock x).now) window (early ++ late),
        g.head?.map (fun x => (clock x).now) = some start := by
  cases hp : Period.after window none (early.map clock) with
  | none =>
      rw [hp] at shown
      exact shown.elim
  | some p =>
      rw [hp] at shown
      obtain ⟨g, mem, head⟩ := exists_mem_windows_of_after (late.map clock) hp
      rw [← List.map_append, windows_map] at mem
      obtain ⟨own, mine, rfl⟩ := List.mem_map.mp mem
      refine ⟨p.opened.now, shown.2, own, mine, ?_⟩
      rw [List.head?_map] at head
      have begins := congrArg (Option.map Clock.now) head
      rwa [Option.map_map] at begins

end Last

end Gatehouse.Limit
