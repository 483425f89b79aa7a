import Jukebox.Entries
import Jukebox.Snowflake

/-!
Counters of what the engine did: refused requests by rule, started tracks, failed loads, and who
listened on which day, for the last days only. A counter is a number without a bound here: one
that is kept in a word would be the same until it has been raised 2 ^ 64 times.
-/
namespace Jukebox

structure Metrics where
  /-- How often each rule refused a request. -/
  prevented : List (String × Nat) := []
  tracksStarted : Nat := 0
  loadFailures : Nat := 0
  /-- Each listener once for each day. -/
  visits : List (UserId × Int) := []
  /-- The day on which old visits were dropped last. -/
  prunedDay : Int := 0
deriving DecidableEq

namespace Metrics

def preventedCount (metrics : Metrics) (rule : String) : Nat :=
  (metrics.prevented.lookup rule).getD 0

def countPrevented (metrics : Metrics) (rule : String) : Metrics :=
  { metrics with
    prevented := (rule, metrics.preventedCount rule + 1) ::
      metrics.prevented.filter (·.1 ≠ rule) }

def countStarted (metrics : Metrics) : Metrics :=
  { metrics with tracksStarted := metrics.tracksStarted + 1 }

def countFailed (metrics : Metrics) : Metrics :=
  { metrics with loadFailures := metrics.loadFailures + 1 }

/-- For how many days the visits are kept. -/
def listenerWindow : Int := 30

/-- Drop the visits that are too old on a day, unless that was done on the same day already. -/
def prune (metrics : Metrics) (day : Int) : Metrics :=
  if metrics.prunedDay = day then metrics
  else { metrics with
    prunedDay := day
    visits := metrics.visits.filter (day - listenerWindow < ·.2) }

def visit (metrics : Metrics) (user : UserId) (day : Int) : Metrics :=
  if (user, day) ∈ metrics.visits then metrics
  else { metrics with visits := (user, day) :: metrics.visits }

def logListener (metrics : Metrics) (user : UserId) (day : Int) : Metrics :=
  (metrics.prune day).visit user day

def listenersOn (metrics : Metrics) (day : Int) : Nat := metrics.visits.countP (·.2 = day)

theorem preventedCount_countPrevented (metrics : Metrics) (rule other : String) :
    (metrics.countPrevented rule).preventedCount other =
      metrics.preventedCount other + if other = rule then 1 else 0 := by
  by_cases h : other = rule
  · subst h; simp [countPrevented, preventedCount]
  · have hne : (other == rule) = false := by simp [h]
    simp only [countPrevented, preventedCount, List.lookup_cons, hne, if_neg h, Nat.add_zero]
    rw [Entries.lookup_filter_ne _ h]

end Metrics

end Jukebox
