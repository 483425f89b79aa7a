import Jukebox.Player.Session

/-!
Operations of a player. An operation changes its session at once, except that it waits wherever it
asks the node for something; what else happens to the session meanwhile is up to whoever runs it.
So one definition serves a run on its own, where the node answers at once, and any interleaving.
-/
namespace Jukebox

/-- An operation under way: it has ended, or it waits for the node's answer to a command. -/
inductive Flow (α : Type) : Type
  | ended (session : Session) (outcome : Except PlayerError α)
  | waiting (session : Session) (command : Command) (resume : Answer → Session → Flow α)

/-- An operation, to be started in a session. -/
def Operation (α : Type) : Type := Session → Flow α

namespace Flow

def andThen {α β : Type} (next : α → Operation β) : Flow α → Flow β
  | ended session (.ok value) => next value session
  | ended session (.error cause) => ended session (.error cause)
  | waiting session command resume =>
    waiting session command fun answer session => (resume answer session).andThen next

def settle {α : Type} : Flow α → Flow (Except PlayerError α)
  | ended session outcome => ended session (.ok outcome)
  | waiting session command resume =>
    waiting session command fun answer session => (resume answer session).settle

/-- Run to the end with a way of answering commands, which may use the session and a state of its
own. -/
def runWith {σ α : Type} (answer : Command → Session × σ → Answer × Session × σ) :
    Flow α → σ → Except PlayerError α × Session × σ
  | ended session outcome, state => (outcome, session, state)
  | waiting session command resume, state =>
    let (reply, session, state) := answer command (session, state)
    (resume reply session).runWith answer state

def run {α : Type} : Flow α → Except PlayerError α × Session
  | ended session outcome => (outcome, session)
  | waiting session command resume =>
    let (reply, session) := session.perform command
    (resume reply session).run

end Flow

namespace Operation

instance : Monad Operation where
  pure value := fun session => .ended session (.ok value)
  bind operation next := fun session => (operation session).andThen next

def fail {α : Type} (cause : PlayerError) : Operation α :=
  fun session => .ended session (.error cause)

def ofExcept {α : Type} : Except PlayerError α → Operation α
  | .ok value => pure value
  | .error cause => fail cause

def get {α : Type} (read : Session → α) : Operation α :=
  fun session => .ended session (.ok (read session))

def change (f : Session → Session) : Operation Unit :=
  fun session => .ended (f session) (.ok ())

def use {α : Type} (f : Session → α × Session) : Operation α :=
  fun session => .ended (f session).2 (.ok (f session).1)

def ask (command : Command) : Operation Unit :=
  fun session => .waiting session command fun
    | .ok (), session => .ended session (.ok ())
    | .error cause, session => .ended session (.error (.backend cause))

def attempt {α : Type} (operation : Operation α) : Operation (Except PlayerError α) :=
  fun session => (operation session).settle

def ignoring {α : Type} (operation : Operation α) : Operation Unit := do
  let _ ← operation.attempt

def run {α : Type} (operation : Operation α) (session : Session) :
    Except PlayerError α × Session := (operation session).run

end Operation

namespace Flow

theorem run_andThen {α β : Type} (next : α → Operation β) (flow : Flow α) :
    (flow.andThen next).run =
      match flow.run with
      | (.ok value, session) => (next value session).run
      | (.error cause, session) => (.error cause, session) := by
  induction flow with
  | ended session outcome => cases outcome <;> rfl
  | waiting session command resume ih => exact ih _ _

theorem run_settle {α : Type} (flow : Flow α) :
    flow.settle.run = (.ok flow.run.1, flow.run.2) := by
  induction flow with
  | ended => rfl
  | waiting session command resume ih => exact ih _ _

end Flow

namespace Operation

theorem run_pure {α : Type} (value : α) (session : Session) :
    (pure value : Operation α).run session = (.ok value, session) := rfl

theorem run_bind {α β : Type} (operation : Operation α) (next : α → Operation β)
    (session : Session) :
    (operation >>= next).run session =
      match operation.run session with
      | (.ok value, session) => (next value).run session
      | (.error cause, session) => (.error cause, session) :=
  Flow.run_andThen next (operation session)

theorem run_fail {α : Type} (cause : PlayerError) (session : Session) :
    (fail cause : Operation α).run session = (.error cause, session) := rfl

theorem run_get {α : Type} (read : Session → α) (session : Session) :
    (get read).run session = (.ok (read session), session) := rfl

theorem run_change (f : Session → Session) (session : Session) :
    (change f).run session = (.ok (), f session) := rfl

theorem run_use {α : Type} (f : Session → α × Session) (session : Session) :
    (use f).run session = (.ok (f session).1, (f session).2) := rfl

theorem run_attempt {α : Type} (operation : Operation α) (session : Session) :
    operation.attempt.run session = (.ok (operation.run session).1, (operation.run session).2) :=
  Flow.run_settle (operation session)

theorem run_ask (command : Command) (session : Session) :
    (ask command).run session =
      ((session.perform command).1.mapError .backend, (session.perform command).2) := by
  show Flow.run _ = _
  simp only [ask, Flow.run]
  rcases session.perform command with ⟨_ | _, _⟩ <;> rfl

end Operation

end Jukebox
