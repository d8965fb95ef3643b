import Gatehouse.Limit.Window
import Gatehouse.Proofs.Http.Value
import Gatehouse.Proofs.Text.Decimal
import Mathlib.Order.Bounds.Basic

/-!
What the headers of a limiter say.

A header holds exactly one number, and the three headers of a window are always
written together (`getAll_writeHeaders`). A number of 64 bits that stands in a
header is read back (`told?_of_getAll`). Times are told in whole seconds, and each
told second is the least that is late enough.
-/

namespace Gatehouse

/-- Rounding up gives the least whole number of seconds that is long enough. -/
theorem Span.isLeast_ceilSeconds (s : Span) :
    IsLeast {n : Nat | s ≤ Span.seconds n} (Span.ceilSeconds s) := by
  have rounds : ∀ t n : Nat, (t + 999999999) / 1000000000 ≤ n ↔ t ≤ n * 1000000000 := by
    intro t n
    omega
  exact ⟨(rounds s _).mp (Nat.le_refl _), fun n hn => (rounds s n).mpr hn⟩

theorem Span.ceilSeconds_mono {s t : Span} (le : s ≤ t) :
    Span.ceilSeconds s ≤ Span.ceilSeconds t :=
  (Span.isLeast_ceilSeconds s).2 (Nat.le_trans le (Span.isLeast_ceilSeconds t).1)

/-- The told second is the first whole one since the epoch by which the span has
passed. -/
theorem Clock.isLeast_resetAt (c : Clock) (ttl : Span) :
    IsLeast {n : Nat | c.wall + ttl ≤ Span.seconds n} (c.resetAt ttl) := by
  have least := Span.isLeast_ceilSeconds (c.wall + ttl).toNat
  refine ⟨?_, fun n hn => least.2 ?_⟩
  · have late : (c.wall + ttl).toNat ≤ Span.seconds (c.resetAt ttl) := least.1
    show c.wall + ttl ≤ Span.seconds (c.resetAt ttl)
    omega
  · exact Int.toNat_le.mpr hn

/-- The headers that limiters write. -/
def Limit.limiterHeaders : List String :=
  [limitHeader, remainingHeader, resetHeader, retryHeader]

namespace Limit.Window

open Http

/-- A client is never told to come back at once. -/
theorem one_le_retryAfter (w : Window) : 1 ≤ w.retryAfter :=
  Nat.le_max_left _ _

/-- The told seconds are enough for what is left of the window. -/
theorem ttl_le_retryAfter (w : Window) : w.ttl ≤ Span.seconds w.retryAfter :=
  Nat.le_trans (Span.isLeast_ceilSeconds w.ttl).1
    (Nat.mul_le_mul_right _ (Nat.le_max_right 1 (Span.ceilSeconds w.ttl)))

/-- A client is never told to wait longer than a window. -/
theorem retryAfter_le {w : Window} {window : Span} (short : w.ttl ≤ window) :
    w.retryAfter ≤ max 1 (Span.ceilSeconds window) := by
  refine Nat.max_le.mpr ⟨Nat.le_max_left _ _, ?_⟩
  exact Nat.le_trans (Span.ceilSeconds_mono short) (Nat.le_max_right _ _)

/-- The value of a header with a number. -/
def numeral (n : Nat) : Value :=
  Bytes.ofText (Text.Decimal.ofNat n)

variable (w : Window) (h : Headers)

@[simp] theorem getAll_number (name : String) (n : Nat) :
    (number name n h).getAll name = [numeral n] :=
  Headers.getAll_insert ..

theorem getAll_number_of_ne {name other : String} (ne : other ≠ name) (n : Nat) :
    (number name n h).getAll other = h.getAll other :=
  Headers.getAll_insert_of_ne ne ..

/-- The three headers of a window. -/
theorem getAll_writeHeaders :
    (w.writeHeaders h).getAll limitHeader = [numeral w.cap] ∧
      (w.writeHeaders h).getAll remainingHeader = [numeral w.remaining] ∧
      (w.writeHeaders h).getAll resetHeader = [numeral w.resetAt] := by
  refine ⟨?_, ?_, ?_⟩
  · rw [writeHeaders, getAll_number_of_ne _ (by decide), getAll_number_of_ne _ (by decide),
      getAll_number]
  · rw [writeHeaders, getAll_number_of_ne _ (by decide), getAll_number]
  · rw [writeHeaders, getAll_number]

theorem getAll_writeHeaders_of_ne {name : String} (limit : name ≠ limitHeader)
    (remaining : name ≠ remainingHeader) (reset : name ≠ resetHeader) :
    (w.writeHeaders h).getAll name = h.getAll name := by
  rw [writeHeaders, getAll_number_of_ne _ reset, getAll_number_of_ne _ remaining,
    getAll_number_of_ne _ limit]

theorem getAll_tell_of_ne {name : String} (limit : name ≠ limitHeader)
    (remaining : name ≠ remainingHeader) (reset : name ≠ resetHeader) :
    (w.tell h).getAll name = h.getAll name := by
  rw [tell]
  split
  · split
    · rfl
    · exact w.getAll_writeHeaders_of_ne h limit remaining reset
  · exact w.getAll_writeHeaders_of_ne h limit remaining reset

theorem getAll_tell_of_not_mem {name : String} (other : name ∉ limiterHeaders) :
    (w.tell h).getAll name = h.getAll name := by
  simp only [limiterHeaders, List.mem_cons, List.not_mem_nil, or_false, not_or] at other
  exact w.getAll_tell_of_ne h other.1 other.2.1 other.2.2.1

/-- Where nothing is told yet, the headers of the window are written. -/
theorem tell_eq_writeHeaders (untold : h.getAll remainingHeader = []) :
    w.tell h = w.writeHeaders h := by
  have nothing : told? h = none := by
    rw [told?, Headers.text?, Headers.get?_eq_none untold]
    rfl
  rw [tell, nothing]

theorem text?_numeral (n : Nat) : (numeral n).text? = some (Text.Decimal.ofNat n) := by
  rw [numeral, Value.text?_ofText, if_pos]
  exact List.all_eq_true.mpr fun c digit =>
    Value.isReadableChar_of_isDigit (Text.Decimal.isDigit_of_mem_ofNat digit)

variable {h} in
/-- A number of remaining requests that was written is read back. -/
theorem told?_of_getAll {n : Nat} (told : h.getAll remainingHeader = [numeral n])
    (word : n ≤ Text.Decimal.max64) : told? h = some n := by
  rw [told?, Headers.text?, Headers.get?_eq_head?, told, List.head?_cons, Option.bind_some,
    text?_numeral, Option.bind_some, Text.Decimal.readNat_ofNat word]
  rfl

/-- A rejection tells of the window like any other response. -/
theorem getAll_tellRejected :
    (w.tellRejected h).getAll limitHeader = [numeral w.cap] ∧
      (w.tellRejected h).getAll remainingHeader = [numeral w.remaining] ∧
      (w.tellRejected h).getAll resetHeader = [numeral w.resetAt] ∧
      (w.tellRejected h).getAll retryHeader = [numeral w.retryAfter] := by
  obtain ⟨limit, remaining, reset⟩ := w.getAll_writeHeaders h
  refine ⟨?_, ?_, ?_, ?_⟩
  · rw [tellRejected, getAll_number_of_ne _ (by decide), limit]
  · rw [tellRejected, getAll_number_of_ne _ (by decide), remaining]
  · rw [tellRejected, getAll_number_of_ne _ (by decide), reset]
  · rw [tellRejected, getAll_number]

end Limit.Window

end Gatehouse
