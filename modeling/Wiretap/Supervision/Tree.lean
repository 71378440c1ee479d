import Wiretap.Supervision

/-!
# Trees of supervisors

A supervisor can itself be a service of another supervisor. It then waits until it is cancelled,
stops its own services, waits until they are over, and stops.

A tree holds its supervisors and, in one list, every service that was ever added to one of them.
Which run of a leaf ends, and how, comes from outside; the rest are moves that the tree makes by
itself.

Results:

* `nodes_add`: adding a service touches one supervisor only.
-/

namespace Wiretap.Supervision

/-- What a service does. A supervisor is one too: it can be added to others. -/
inductive Work where
  | leaf
  /-- It is the supervisor of that number. -/
  | supervisor (node : Nat)
  deriving DecidableEq, Repr

/-- A service that was added to a supervisor (`Child`, and the task of `run_child`). -/
structure Child where
  parent : Nat
  token : Nat
  work : Work
  /-- It was cancelled by itself. Cancelling its supervisor cancels it too. -/
  cancelled : Bool := false
  life : Life := .fresh
  /-- The services that a stopping supervisor waits for. -/
  awaited : Option (List Nat) := none
  deriving DecidableEq, Repr

structure Tree where
  policy : RestartPolicy
  /-- The supervisors. Their sets hold numbers of services. -/
  nodes : List (Supervisor Nat)
  children : List Child
  deriving Repr

namespace Tree

/-- Model of `Supervisor::new`: a tree of one supervisor, which has number 0. -/
def root (policy : RestartPolicy) : Tree := { policy, nodes := [{}], children := [] }

def child? (t : Tree) (c : Nat) : Option Child := t.children[c]?

def setChild (t : Tree) (c : Nat) (child : Child) : Tree :=
  { t with children := t.children.set c child }

def alterNode (t : Tree) (n : Nat) (f : Supervisor Nat → Supervisor Nat) : Tree :=
  { t with nodes := t.nodes.modify n f }

/-- The supervisor of that number has been stopped. -/
def isStopped (t : Tree) (n : Nat) : Bool := t.nodes[n]?.any (·.cancelled)

/-- Whether a service is to end. -/
def isCancelled (t : Tree) (child : Child) : Bool := child.cancelled || t.isStopped child.parent

def isOver (t : Tree) (c : Nat) : Bool := (t.child? c).all (·.life.isOver)

/-- Model of `Supervisor::add_boxed` on the supervisor `n`: adds a service to it, under the next
number. -/
def add (t : Tree) (n : Nat) (work : Work) : Tree :=
  let token := (t.nodes[n]?.map (·.nextToken)).getD 0
  { t.alterNode n (·.add t.children.length) with
    children := t.children ++ [{ parent := n, token, work }] }

/-- Adds a new supervisor to the supervisor `n`. -/
def nest (t : Tree) (n : Nat) : Tree :=
  let t' := t.add n (.supervisor t.nodes.length)
  { t' with nodes := t'.nodes ++ [{}] }

/-- Cancels one service, as `Supervisor::stop_child` does before it waits. -/
def cancel (t : Tree) (c : Nat) : Tree :=
  { t with children := t.children.modify c ({ · with cancelled := true }) }

/-- Model of `Supervisor::remove` on the supervisor `n`, up to where it waits: takes a service out
of the set and cancels it. The number is that of the service, which the caller waits for. -/
def remove? (t : Tree) (n token : Nat) : Option (Tree × Nat) :=
  match t.nodes[n]?.bind (·.member? token) with
  | some c => some ((t.alterNode n (·.drop token)).cancel c, c)
  | none => none

/-- Model of `Supervisor::stop` on the supervisor `n`, up to where it waits: the services are those
that the caller waits for. They leave the set before they are over. -/
def stop (t : Tree) (n : Nat) : Tree × List Nat :=
  let members := (t.nodes[n]?.map (·.members.map (·.2))).getD []
  (members.foldl cancel (t.alterNode n (·.stop)), members)

/-- A service goes over to another stage of its life. One that is over leaves its supervisor, which
is the part of `run_child` behind `supervise`: `Reaper::reap`. -/
def enter (t : Tree) (c : Nat) (child : Child) (life : Life) : Tree :=
  let t := t.setChild c { child with life }
  if life.isOver then t.alterNode child.parent (·.drop child.token) else t

/-- A move of one service. -/
inductive Move where
  /-- Its run ends. -/
  | ended (e : Exit)
  /-- Its rest ends. -/
  | awake
  /-- A supervisor that is cancelled stops its services. -/
  | gather
  /-- They are over. -/
  | release
  deriving DecidableEq, Repr

/-- The tree after a move of the service `c`, if the move can be made now. A leaf and its rests are
modelled on `supervise`, a supervisor on its `serve`: it waits until it is cancelled, calls
`Supervisor::stop`, and stops when that returns. -/
def step? (now : Nat) (c : Nat) (m : Move) (t : Tree) : Option Tree :=
  match t.child? c with
  | none => none
  | some child =>
    match m, child.work, child.life with
    | .ended e, .leaf, .running failures =>
      some (t.enter c child (.ended t.policy now (t.isCancelled child) failures e))
    | .awake, _, life =>
      (life.awake? now (t.isCancelled child)).map (t.enter c child)
    | .gather, .supervisor n, .running _ =>
      if child.awaited.isNone && t.isCancelled child then
        let (t, awaited) := t.stop n
        some (t.setChild c { child with awaited := some awaited })
      else none
    | .release, .supervisor _, .running failures =>
      match child.awaited with
      | some awaited =>
        if awaited.all t.isOver then
          some (t.enter c child (.ended t.policy now (t.isCancelled child) failures .stopped))
        else none
      | none => none
    | _, _, _ => none

theorem nodes_add (t : Tree) (n : Nat) (work : Work) :
    (t.add n work).nodes = t.nodes.modify n (·.add t.children.length) := rfl

end Tree
end Wiretap.Supervision
