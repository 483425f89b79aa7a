import Jukebox.Node.Command

/-!
An audio node with settable failures. It refuses the commands it is set to fail, the tracks it is
set to reject, and whatever an outage stops; a command that it refuses changes nothing but the log
of what it was asked.
-/
namespace Jukebox

/-- A command that the node was asked, and whether it was done. -/
structure Asked where
  command : Command
  done : Bool
deriving DecidableEq

structure AudioNode where
  position : Millis := 0
  channel : Option ChannelId := none
  state : LinkState := .notConnected
  /-- The titles that a play refuses. -/
  rejected : List String := []
  failing : List CommandKind := []
  /-- What goes wrong with this command when it comes at this place in the log, if anything. -/
  outages : Nat → Command → Option String := fun _ _ => none
  /-- Everything the node was asked, oldest first. -/
  log : List Asked := []

namespace AudioNode

def titleRefusal? (node : AudioNode) : Command → Option String
  | .play audio _ _ =>
    if audio.title ∈ node.rejected then some ("pista no disponible: " ++ audio.title) else none
  | _ => none

def refusal? (node : AudioNode) (command : Command) : Option String :=
  if command.kind ∈ node.failing then some ("nodo: fallo en " ++ command.kind.name)
  else
    match node.titleRefusal? command with
    | some cause => some cause
    | none => node.outages node.log.length command

def carryOut (node : AudioNode) : Command → AudioNode
  | .play _ start _ => { node with position := start }
  | .seek position => { node with position }
  | .connect channel => { node with channel := some channel, state := .connected }
  | .destroy => { node with channel := none, state := .destroyed }
  | _ => node

def record (node : AudioNode) (command : Command) (done : Bool) : AudioNode :=
  { node with log := node.log ++ [{ command, done }] }

def perform (node : AudioNode) (command : Command) : Answer × AudioNode :=
  match node.refusal? command with
  | some cause => (.error cause, node.record command false)
  | none => (.ok (), (node.carryOut command).record command true)

theorem log_carryOut (node : AudioNode) (command : Command) :
    (node.carryOut command).log = node.log := by
  cases command <;> rfl

/-- Every command is noted, with what came of it. -/
theorem log_perform (node : AudioNode) (command : Command) :
    (node.perform command).2.log =
      node.log ++ [{ command, done := (node.refusal? command).isNone }] := by
  unfold perform
  cases node.refusal? command with
  | some cause => rfl
  | none => simp only [record, log_carryOut, Option.isNone_none]

theorem perform_eq_ok_iff {node : AudioNode} {command : Command} :
    (node.perform command).1 = .ok () ↔ node.refusal? command = none := by
  unfold perform
  cases node.refusal? command <;> simp

end AudioNode

end Jukebox
