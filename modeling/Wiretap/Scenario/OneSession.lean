import Wiretap.Scenario.Client

/-!
# Scenarios with one session

A session that a client starts, uses and stops.
-/

namespace Wiretap.Scenario

structure OneSession where
  now : Nat := 0
  live : Live
  client : Client := {}
  /-- The end of the session has been noticed. -/
  joined : Bool := false

namespace OneSession

inductive Step where
  | client (s : ClientStep)
  /-- Runs the session. -/
  | start
  /-- Gives up the session if it does not run yet. -/
  | drop
  /-- Tells the session to stop, and looks whether it is over. -/
  | stop
  | advance (duration : Nat)

inductive Answer where
  | nothing
  | client (a : ClientAnswer)
  | flag (b : Bool)

def desk (now : Nat) : Desk Live where
  live? l _ := some l
  setLive _ _ l := l
  settle := Live.world.settle now

def settle (s : OneSession) : OneSession := { s with live := Live.world.settle s.now s.live }

def step (s : OneSession) : Step → OneSession × Answer
  | .client m =>
    let target : Target := ⟨s.live.session.id, some 0, some 0⟩
    let (client, live, answer) := s.client.step (desk s.now) target s.live m
    ({ s with client, live }.settle, .client answer)
  | .start => ({ s with live := s.live.start s.now }.settle, .nothing)
  | .drop =>
    let fresh := match s.live.session.stage with
      | .created => true
      | _ => false
    ({ s with live := s.live.drop }.settle, .flag fresh)
  | .stop =>
    let s := { s with live := s.live.cancel }.settle
    let ends := s.live.session.isOver && !s.joined
    ({ s with joined := s.joined || ends }, .flag ends)
  | .advance duration =>
    let (now, live) := Live.world.advance s.now duration s.live
    ({ s with now, live }, .nothing)

end OneSession
end Wiretap.Scenario
