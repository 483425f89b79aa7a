import Jukebox.Proofs.Player.Acts

/-!
The calls of a player to its node. A run on its own can be watched: every command is noted as it is
asked, with the track that is current at that moment, and the run is the same as if nobody watched.
What an operation keeps of a session and the calls noted so far is found part by part.
-/
namespace Jukebox

/-- Something that a node was asked, and the track that was current then. -/
structure Call where
  current : Option Track
  asked : Asked

namespace Session

def performNoting (command : Command) : Session × List Call → Answer × Session × List Call
  | (session, calls) =>
    ((session.perform command).1, (session.perform command).2,
      calls ++ [{
        current := session.player.current
        asked := { command, done := (session.node.refusal? command).isNone } }])

end Session

namespace Flow

variable {α β σ : Type} (answer : Command → Session × σ → Answer × Session × σ)

theorem runWith_andThen (next : α → Operation β) (flow : Flow α) (state : σ) :
    (flow.andThen next).runWith answer state =
      match flow.runWith answer state with
      | (.ok value, session, state) => (next value session).runWith answer state
      | (.error cause, session, state) => (.error cause, session, state) := by
  induction flow generalizing state with
  | ended session outcome => cases outcome <;> rfl
  | waiting session command resume ih => exact ih _ _ _

theorem runWith_settle (flow : Flow α) (state : σ) :
    flow.settle.runWith answer state =
      (.ok (flow.runWith answer state).1, (flow.runWith answer state).2) := by
  induction flow generalizing state with
  | ended => rfl
  | waiting session command resume ih => exact ih _ _ _

/-- Noting the calls changes nothing. -/
theorem runWith_performNoting (flow : Flow α) (calls : List Call) :
    (flow.runWith Session.performNoting calls).1 = flow.run.1 ∧
      (flow.runWith Session.performNoting calls).2.1 = flow.run.2 := by
  induction flow generalizing calls with
  | ended => exact ⟨rfl, rfl⟩
  | waiting session command resume ih => exact ih _ _ _

end Flow

namespace Operation

variable {α β : Type}

def noting (operation : Operation α) (state : Session × List Call) :
    Except PlayerError α × Session × List Call :=
  (operation state.1).runWith Session.performNoting state.2

/-- What holds of a session and its calls holds after the operation as well. -/
def Keeps (holds : Session × List Call → Prop) (operation : Operation α) : Prop :=
  ∀ state, holds state → holds (operation.noting state).2

variable {holds : Session × List Call → Prop}

theorem noting_bind (operation : Operation α) (next : α → Operation β)
    (state : Session × List Call) :
    (operation >>= next).noting state =
      match operation.noting state with
      | (.ok value, state) => (next value).noting state
      | (.error cause, state) => (.error cause, state) := by
  refine (Flow.runWith_andThen _ next (operation state.1) state.2).trans ?_
  unfold noting
  cases (operation state.1).runWith Session.performNoting state.2 with
  | mk outcome later => cases outcome <;> rfl

theorem noting_attempt (operation : Operation α) (state : Session × List Call) :
    operation.attempt.noting state =
      (.ok (operation.noting state).1, (operation.noting state).2) :=
  Flow.runWith_settle _ (operation state.1) state.2

theorem noting_ask (command : Command) (state : Session × List Call) :
    (ask command).noting state =
      ((Session.performNoting command state).1.mapError .backend,
        (Session.performNoting command state).2) := by
  obtain ⟨session, calls⟩ := state
  unfold noting ask Session.performNoting
  dsimp only [Flow.runWith]
  cases (session.perform command).1 <;> rfl

theorem keeps_pure (value : α) : (pure value : Operation α).Keeps holds := fun _ h => h

theorem keeps_fail (cause : PlayerError) : (fail cause : Operation α).Keeps holds := fun _ h => h

theorem keeps_get (read : Session → α) : (get read).Keeps holds := fun _ h => h

theorem keeps_use {f : Session → α × Session}
    (h : ∀ session calls, holds (session, calls) → holds ((f session).2, calls)) :
    (use f).Keeps holds := fun state => h state.1 state.2

theorem keeps_change {f : Session → Session}
    (h : ∀ session calls, holds (session, calls) → holds (f session, calls)) :
    (change f).Keeps holds := fun state => h state.1 state.2

theorem keeps_ask {command : Command}
    (h : ∀ state, holds state → holds (Session.performNoting command state).2) :
    (ask command).Keeps holds := by
  intro state hstate
  rw [noting_ask]
  exact h state hstate

theorem noting_use (f : Session → α × Session) (session : Session) (calls : List Call) :
    (use f).noting (session, calls) = (.ok (f session).1, (f session).2, calls) := rfl

theorem noting_get_bind (read : Session → α) (next : α → Operation β) (session : Session)
    (calls : List Call) :
    (get read >>= next).noting (session, calls) = (next (read session)).noting (session, calls) :=
  noting_bind (get read) next (session, calls)

/-- What holds after the first of two operations holds after both. -/
theorem keeps_after {operation : Operation α} {next : α → Operation β}
    {state : Session × List Call} (hfirst : holds (operation.noting state).2)
    (hnext : ∀ value, (next value).Keeps holds) : holds ((operation >>= next).noting state).2 := by
  rw [noting_bind]
  cases hrun : operation.noting state with
  | mk outcome later =>
    rw [hrun] at hfirst
    cases outcome with
    | ok value => exact hnext value later hfirst
    | error cause => exact hfirst

theorem Keeps.bind {operation : Operation α} (h : operation.Keeps holds)
    {next : α → Operation β} (hnext : ∀ value, (next value).Keeps holds) :
    (operation >>= next).Keeps holds := fun state hstate => keeps_after (h state hstate) hnext

theorem keeps_ignoring {operation : Operation α} {state : Session × List Call}
    (h : holds (operation.noting state).2) : holds (operation.ignoring.noting state).2 := by
  refine keeps_after ?_ fun _ => keeps_pure ()
  rw [noting_attempt]
  exact h

theorem Keeps.ignoring {operation : Operation α} (h : operation.Keeps holds) :
    operation.ignoring.Keeps holds := fun state hstate => keeps_ignoring (h state hstate)

end Operation

end Jukebox
