import Jukebox.Proofs.Player.Conduct

/-!
Operations of one player at the same time. An operation may be started while others wait for the
node, and given up while it waits itself; the node's answers come in any order, whatever they are,
and meanwhile the node and the services may come to anything. What no part of an operation breaks
holds of the player at every moment of that.
-/
namespace Jukebox

structure Player.Robust (holds : Player → Prop) : Prop extends Firm holds where
  clamped {player : Player} (volume : Single) :
    holds player → holds { player with volume := volume.clamp .zero maxVolume }

/-- Such a property asks nothing of what the player sends, or of what snapshots bring. -/
theorem Player.Robust.conduct {holds : Player → Prop} (h : Robust holds) :
    Conduct holds (fun _ => True) fun _ => True :=
  { h.toFirm with
    clamped := fun _ => h.clamped _
    asks := fun _ => trivial
    sets := fun _ => trivial
    tells := fun _ => trivial }

/-! ### Traffic -/

structure Traffic where
  session : Session
  /-- How the operations that wait for the node go on with its answers. -/
  waits : List (Answer → Session → Flow Unit) := []

inductive TrafficEvent
  | starts (step : PlayerStep)
  /-- An answer reaches the operation that waits at a place. -/
  | answers (place : Nat) (answer : Answer)
  /-- The operation that waits at a place is given up. -/
  | drops (place : Nat)
  /-- Node and services come to something else. -/
  | drifts (node : AudioNode) (services : Services)

namespace Traffic

def opening (session : Session) (dice : Dice) (volume : Single) : Traffic where
  session := session.opening dice volume

def goOn (traffic : Traffic) : Flow Unit → Traffic
  | .ended session _ => { traffic with session }
  | .waiting session _ resume => { session, waits := traffic.waits ++ [resume] }

def step (traffic : Traffic) : TrafficEvent → Traffic
  | .starts step => traffic.goOn (step.operation traffic.session)
  | .answers place answer =>
    match traffic.waits[place]? with
    | none => traffic
    | some resume =>
      { traffic with waits := traffic.waits.eraseIdx place }.goOn (resume answer traffic.session)
  | .drops place => { traffic with waits := traffic.waits.eraseIdx place }
  | .drifts node services =>
    { traffic with session := { traffic.session with node, services } }

def run (traffic : Traffic) (events : List TrafficEvent) : Traffic := events.foldl step traffic

def sent? (traffic : Traffic) : TrafficEvent → Option Command
  | .starts step => (step.operation traffic.session).command?
  | .answers place answer =>
    (traffic.waits[place]?).bind fun resume => (resume answer traffic.session).command?
  | .drops _ => none
  | .drifts _ _ => none

/-- The commands that are sent in a run, oldest first, refused or not. -/
def sent : Traffic → List TrafficEvent → List Command
  | _, [] => []
  | traffic, event :: rest => (traffic.sent? event).toList ++ (traffic.step event).sent rest

structure Abides (holds : Player → Prop) (sends : Command → Prop) (traffic : Traffic) : Prop where
  now : holds traffic.session.player
  waits : ∀ resume ∈ traffic.waits, ∀ answer later, holds later.player →
    (resume answer later).Abides holds sends

variable {holds : Player → Prop} {sends : Command → Prop} {brings : Single → Prop}
  {traffic : Traffic}

namespace Abides

theorem goOn (h : traffic.Abides holds sends) {flow : Flow Unit}
    (hflow : flow.Abides holds sends) : (traffic.goOn flow).Abides holds sends := by
  cases flow with
  | ended session outcome => exact ⟨hflow, h.waits⟩
  | waiting session command resume =>
    obtain ⟨hnow, -, hresume⟩ := hflow
    refine ⟨hnow, fun other hother => ?_⟩
    rcases List.mem_append.mp hother with hold | hnew
    · exact h.waits other hold
    · rw [List.mem_singleton.mp hnew]
      exact hresume

theorem erase (h : traffic.Abides holds sends) (place : Nat) :
    { traffic with waits := traffic.waits.eraseIdx place }.Abides holds sends :=
  ⟨h.now, fun resume hresume => h.waits resume (List.mem_of_mem_eraseIdx hresume)⟩

theorem step (h : traffic.Abides holds sends) (hconduct : Player.Conduct holds sends brings)
    {event : TrafficEvent}
    (hbrings : ∀ snapshot, event = .starts (.restore snapshot true) → brings snapshot.volume) :
    (traffic.step event).Abides holds sends ∧
      ∀ command ∈ traffic.sent? event, sends command := by
  cases event with
  | starts step =>
    have hflow : (step.operation traffic.session).Abides holds sends := by
      apply hconduct.step _ traffic.session h.now
      intro snapshot hstep
      exact hbrings snapshot (by rw [hstep])
    exact ⟨h.goOn hflow, hflow.sends_command?⟩
  | answers place answer =>
    cases hwait : traffic.waits[place]? with
    | none => simpa only [Traffic.step, sent?, hwait] using ⟨h, nofun⟩
    | some resume =>
      have hflow := h.waits resume (List.mem_of_getElem? hwait) answer traffic.session h.now
      simpa only [Traffic.step, sent?, hwait] using
        ⟨(h.erase place).goOn hflow, hflow.sends_command?⟩
  | drops place => exact ⟨h.erase place, nofun⟩
  | drifts node services => exact ⟨⟨h.now, h.waits⟩, nofun⟩

theorem run (h : traffic.Abides holds sends) (hconduct : Player.Conduct holds sends brings)
    {events : List TrafficEvent}
    (hbrings : ∀ snapshot, .starts (.restore snapshot true) ∈ events → brings snapshot.volume) :
    (traffic.run events).Abides holds sends ∧
      ∀ command ∈ traffic.sent events, sends command := by
  induction events generalizing traffic with
  | nil => exact ⟨h, nofun⟩
  | cons event rest ih =>
    obtain ⟨hnow, hsent⟩ := h.step hconduct fun snapshot heq =>
      hbrings snapshot (heq ▸ List.mem_cons_self)
    obtain ⟨hlast, hlater⟩ := ih hnow fun snapshot hmem =>
      hbrings snapshot (List.mem_cons_of_mem event hmem)
    refine ⟨hlast, fun command hcommand => ?_⟩
    rcases List.mem_append.mp hcommand with hfirst | hrest
    · exact hsent command (Option.mem_toList.mp hfirst)
    · exact hlater command hrest

end Abides

/-- When nothing has happened yet, no operation waits. -/
theorem abides_opening {session : Session} {dice : Dice} {volume : Single}
    (hnow : holds (.fresh dice volume)) : (opening session dice volume).Abides holds sends :=
  ⟨hnow, fun _ hresume => absurd hresume List.not_mem_nil⟩

/-- A robust property of a new player holds at every moment. -/
theorem holds_run (hrobust : Player.Robust holds) (session : Session) (dice : Dice)
    (volume : Single) (hnow : holds (.fresh dice volume)) (events : List TrafficEvent) :
    holds ((opening session dice volume).run events).session.player :=
  ((abides_opening hnow).run hrobust.conduct fun _ _ => trivial).1.now

/-- An operation that is not disturbed does what it does on its own. -/
theorem exists_run_alone (flow : Flow Unit) (traffic : Traffic) : ∃ events,
    ((traffic.goOn flow).run events).session = flow.run.2 ∧
      ((traffic.goOn flow).run events).waits = traffic.waits := by
  induction flow generalizing traffic with
  | ended session outcome => exact ⟨[], rfl, rfl⟩
  | waiting session command resume ih =>
    let place := traffic.waits.length
    let answer := (session.perform command).1
    let asked : Traffic :=
      { session := (session.perform command).2, waits := traffic.waits ++ [resume] }
    have hwait : asked.waits[place]? = some resume := by simp [asked, place]
    have herased : asked.waits.eraseIdx place = traffic.waits := by
      simp [asked, place, List.eraseIdx_append_of_length_le]
    have hgoesOn : asked.step (.answers place answer) =
        { asked with waits := traffic.waits }.goOn (resume answer asked.session) := by
      simp only [step, hwait, herased]
    obtain ⟨events, hend⟩ := ih answer asked.session { asked with waits := traffic.waits }
    refine ⟨.drifts asked.session.node session.services :: .answers place answer :: events, ?_⟩
    change (run (asked.step (.answers place answer)) events).session = _ ∧
      (run (asked.step (.answers place answer)) events).waits = _
    rw [hgoesOn]
    exact hend

/-- So what a player comes to by itself, step after step, it comes to in traffic as well. -/
theorem exists_run_afterAll (session : Session) (dice : Dice) (volume : Single)
    (steps : List PlayerStep) : ∃ events, ((opening session dice volume).run events).session =
      (session.opening dice volume).afterAll steps := by
  suffices h : ∀ traffic : Traffic, ∃ events,
      (traffic.run events).session = traffic.session.afterAll steps from h _
  induction steps with
  | nil => exact fun traffic => ⟨[], rfl⟩
  | cons step rest ih =>
    intro traffic
    obtain ⟨first, hfirst, -⟩ := exists_run_alone (step.operation traffic.session) traffic
    obtain ⟨more, hmore⟩ := ih ((traffic.goOn (step.operation traffic.session)).run first)
    refine ⟨.starts step :: (first ++ more), ?_⟩
    rw [hfirst] at hmore
    rw [run, List.foldl_cons, List.foldl_append]
    exact hmore

end Traffic

end Jukebox
