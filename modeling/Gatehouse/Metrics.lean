import Gatehouse.Text.Decimal

/-!
Counts of what happened, and their text exposition.

Two families have one counter for each label, and two have a single counter.
The exposition lists the families in a fixed order and the samples of a family
in the order of their bytes.
-/

namespace Gatehouse

/-- Counters by label, each label once. -/
abbrev Tally := List (String × Nat)

namespace Tally

def get (t : Tally) (label : String) : Nat :=
  (t.lookup label).getD 0

def bump (t : Tally) (label : String) : Tally :=
  (label, t.get label + 1) :: t.filter fun p => p.1 != label

def total (t : Tally) : Nat :=
  t.foldl (fun sum p => sum + p.2) 0

end Tally

/-- What is counted. -/
structure Metrics where
  /-- Requests that a limiter rejected, by its name. -/
  rejections : Tally := []
  /-- Limiter checks that passed because the store gave no answer. -/
  storeFaults : Nat := 0
  /-- Requests without a usable session. -/
  authFailures : Nat := 0
  /-- Returns from the identity provider, by outcome. -/
  callbacks : Tally := []
  deriving DecidableEq, Repr

namespace Metrics

def recordRejection (limiter : String) (m : Metrics) : Metrics :=
  { m with rejections := m.rejections.bump limiter }

def recordStoreFault (m : Metrics) : Metrics :=
  { m with storeFaults := m.storeFaults + 1 }

def recordAuthFailure (m : Metrics) : Metrics :=
  { m with authFailures := m.authFailures + 1 }

/-- A return from the identity provider came to an outcome. -/
def recordCallback (outcome : String) (m : Metrics) : Metrics :=
  { m with callbacks := m.callbacks.bump outcome }

def head (family help : String) : String :=
  "# HELP " ++ family ++ " " ++ help ++ ".\n# TYPE " ++ family ++ " counter\n"

/-- The sample line of a family without labels. -/
def sample (family : String) (n : Nat) : String :=
  family ++ "_total " ++ Text.Decimal.ofNat n ++ "\n"

/-- The sample line of a label, which is written as it is. -/
def labelled (family name : String) (entry : String × Nat) : String :=
  family ++ "_total\x7b" ++ name ++ "=\"" ++ entry.1 ++ "\"\x7d " ++
    Text.Decimal.ofNat entry.2 ++ "\n"

/-- The sample lines of a family with labels, in order. -/
def samples (family name : String) (t : Tally) : String :=
  String.join ((t.map (labelled family name)).mergeSort fun a b => a ≤ b)

def expose (m : Metrics) : String :=
  head "rate_limit_rejections" "Requests rejected by a rate limiter" ++
    samples "rate_limit_rejections" "limiter" m.rejections ++
    head "rate_limit_store_errors" "Rate limit store failures answered by failing open" ++
    sample "rate_limit_store_errors" m.storeFaults ++
    head "auth_failures" "Requests without a usable session" ++
    sample "auth_failures" m.authFailures ++
    head "oauth_callbacks" "OAuth callbacks by outcome" ++
    samples "oauth_callbacks" "outcome" m.callbacks ++ "# EOF\n"

end Metrics

end Gatehouse
