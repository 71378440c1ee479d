import Wiretap.Scenario.Clock
import Wiretap.Supervision.Tree

/-!
# Supervised services that follow a script

Each leaf of the tree follows a script: what its first run does, its second, and so on, and
afterwards it runs until it is cancelled. What the runs did is logged.
-/

namespace Wiretap.Scenario

open Supervision

/-- One run of a scripted service: how long it lasts and how it ends. A deaf run does not heed its
cancellation. -/
structure Run where
  after : Nat
  deaf : Bool
  exit : Exit
  /-- What the log says of its end. -/
  label : String
  deriving Repr

structure Script where
  runs : List Run := []
  /-- How long the service takes to stop once it is past its list. -/
  linger : Nat := 0
  deriving Repr

/-- What the log says of one run. -/
structure LogEntry where
  began : Nat
  ended : Nat
  label : String
  deriving Repr

/-- Where the current run of a service stands. -/
inductive Play where
  | offstage
  | playing (began : Nat) (run : Run)
  | listening (began : Nat)
  | lingering (began : Nat) (due : Nat)
  deriving Repr

/-- A service with its script. The log is in reverse order. -/
structure Actor where
  script : Script
  play : Play := .offstage
  log : List LogEntry := []
  deriving Repr

/-- A tree whose services are actors. There is an actor per service, also for a supervisor. -/
structure Stage where
  tree : Tree
  actors : List Actor := []

namespace Stage

def setActor (s : Stage) (c : Nat) (a : Actor) : Stage := { s with actors := s.actors.set c a }

/-- The run of the service `c` ends. -/
def finish? (s : Stage) (now c : Nat) (a : Actor) (began : Nat) (label : String) (e : Exit) :
    Option Stage :=
  (s.tree.step? now c (.ended e)).map fun tree =>
    { s with tree }.setActor c
      { a with play := .offstage, log := ⟨began, now, label⟩ :: a.log }

/-- A move of the service `c` that follows its script. -/
def act? (s : Stage) (now c : Nat) (a : Actor) (child : Child) : Option Stage :=
  match a.play with
  | .offstage =>
    let play := match a.script.runs with
      | run :: _ => .playing now run
      | [] => .listening now
    some (s.setActor c { a with play, script.runs := a.script.runs.tail })
  | .playing began run =>
    if !run.deaf && s.tree.isCancelled child then s.finish? now c a began "cancelled" .stopped
    else if began + run.after ≤ now then s.finish? now c a began run.label run.exit
    else none
  | .listening began =>
    if s.tree.isCancelled child then
      some (s.setActor c { a with play := .lingering began (now + a.script.linger) })
    else none
  | .lingering began due =>
    if due ≤ now then s.finish? now c a began "stopped" .stopped else none

/-- A move of the service `c`. -/
def moveOf? (s : Stage) (now c : Nat) : Option Stage :=
  match s.tree.child? c, s.actors[c]? with
  | some child, some a =>
    match child.work, child.life with
    | .leaf, .running _ => s.act? now c a child
    | _, _ =>
      ([.awake, .gather, .release].findSome? fun m => s.tree.step? now c m).map
        fun tree => { s with tree }
  | _, _ => none

def move? (now : Nat) (s : Stage) : Option Stage :=
  (List.range s.actors.length).findSome? (s.moveOf? now)

/-- The timers that the service `c` waits for. -/
def alarmsOf (child : Child) (a : Actor) : List Nat :=
  match child.life with
  | .resting _ due => [due]
  | .running _ =>
    match a.play with
    | .playing began run => [began + run.after]
    | .lingering _ due => [due]
    | _ => []
  | .finished => []

def alarm? (now : Nat) (s : Stage) : Option Nat :=
  (((s.tree.children.zip s.actors).flatMap fun (child, a) => alarmsOf child a).filter
    (now < ·)).min?

def world : World Stage := ⟨move?, alarm?⟩

/-- A stage with one supervisor. -/
def root (policy : RestartPolicy) : Stage := { tree := .root policy }

/-- Adds a scripted service to the supervisor `n`. -/
def add (s : Stage) (n : Nat) (script : Script) : Stage :=
  { tree := s.tree.add n .leaf, actors := s.actors ++ [{ script }] }

/-- Adds a supervisor to the supervisor `n`. -/
def nest (s : Stage) (n : Nat) : Stage :=
  { tree := s.tree.nest n, actors := s.actors ++ [{ script := {} }] }

/-- The token of the service `c`. -/
def token (s : Stage) (c : Nat) : Nat := ((s.tree.child? c).map (·.token)).getD 0

/-- The number of services under the supervisor `n`. -/
def size (s : Stage) (n : Nat) : Nat := (s.tree.nodes[n]?.map (·.size)).getD 0

/-- Takes the service of that token out of the supervisor `n`, and lets time pass until it
is over. -/
def remove? (s : Stage) (now n token : Nat) : Option (Nat × Stage) :=
  (s.tree.remove? n token).map fun (tree, c) =>
    world.waitUntil now (·.tree.isOver c) { s with tree }

/-- Stops the supervisor `n`, and lets time pass until its services are over. -/
def stop (s : Stage) (now n : Nat) : Nat × Stage :=
  let (tree, awaited) := s.tree.stop n
  world.waitUntil now (fun s => awaited.all s.tree.isOver) { s with tree }

end Stage

/-- Supervisors, by names, and the services under them. -/
structure Supervisors where
  now : Nat := 0
  stage : Stage
  names : List String := ["root"]

namespace Supervisors

inductive Step where
  | add (on : String) (script : Script)
  | nest (on : String) (name : String)
  /-- Applies the token of the service of that number to a supervisor. -/
  | remove (on : String) (index : Nat)
  | stop (on : String)
  | advance (duration : Nat)

inductive Answer where
  | nothing
  | added (token : Nat)
  | removed
  | unknown (token : Nat)

/-- The number of the supervisor of that name. Of several the newest counts. -/
def node (s : Supervisors) (name : String) : Nat :=
  (s.names.length - 1) - s.names.reverse.findIdx (· == name)

def settle (s : Supervisors) : Supervisors := { s with stage := Stage.world.settle s.now s.stage }

/-- The token of the service that was added last. -/
def lastToken (stage : Stage) : Nat := stage.token (stage.actors.length - 1)

def step (s : Supervisors) : Step → Supervisors × Answer
  | .add on script =>
    let stage := s.stage.add (s.node on) script
    ({ s with stage }.settle, .added (lastToken stage))
  | .nest on name =>
    let stage := s.stage.nest (s.node on)
    ({ s with stage, names := s.names ++ [name] }.settle, .added (lastToken stage))
  | .remove on index =>
    let token := s.stage.token index
    match s.stage.remove? s.now (s.node on) token with
    | some (now, stage) => ({ s with now, stage }.settle, .removed)
    | none => (s.settle, .unknown token)
  | .stop on =>
    let (now, stage) := s.stage.stop s.now (s.node on)
    ({ s with now, stage }.settle, .nothing)
  | .advance duration =>
    let (now, stage) := Stage.world.advance s.now duration s.stage
    ({ s with now, stage }, .nothing)

/-- The supervisors with the number of services under each. -/
def sizes (s : Supervisors) : List (String × Nat) :=
  s.names.zipIdx.map fun (name, i) => (name, s.stage.size i)

end Supervisors
end Wiretap.Scenario
