import ZfsEvacuation.ControllerBase

/-!
# The task of a relay

A relay listens on one port for each node agent. Its task accepts the source, has a second
task read the stream into a bounded queue, accepts the target and writes to it what comes
out of the queue. Both tasks, the connections that others open and the results of the socket
calls interleave in any order.
-/
namespace ZfsEvacuation.RelayTask

/-- How much one read takes at most. -/
def chunkSize : Nat := 256 * 1024

/-- How many chunks the queue holds. -/
def bufferChunks : Nat := 256

inductive Role where
  | backup | restore
  deriving DecidableEq, Repr

/-- A connection to a port, with all that its peer will send before it closes its side. -/
structure Conn where
  peer : IpAddr
  stream : List UInt8
  deriving DecidableEq, Repr

inductive Reader where
  | reading
  | sending (chunk : List UInt8)
  | finished (result : Except Error Unit)
  /-- The runtime has ended the task. -/
  | joinError (text : String)

inductive Stage where
  | acceptingSource
  | acceptingTarget
  | receiving
  | writing (chunk rest : List UInt8)
  | joining
  | closing
  | done (result : Except Error Nat)
  | aborted

/-- The task holds its end of the queue no more. -/
def Stage.over : Stage → Bool
  | .done _ | .aborted => true
  | _ => false

structure State where
  stage : Stage := .acceptingSource
  reader : Option Reader := none
  /-- Connections that wait to be accepted. -/
  backlog : Role → List Conn := fun _ => []
  /-- Connections that were accepted and kept. -/
  served : Role → List Conn := fun _ => []
  /-- Bytes read from the source. -/
  taken : List UInt8 := []
  queue : List (List UInt8) := []
  /-- Bytes handed to the target. -/
  delivered : List UInt8 := []
  total : Nat := 0
  bytes : Nat := 0
  lastActivity : Nat := 0
  sourceConnected : Bool := false
  now : Nat := 0

/-- The result of a socket call. -/
inductive Io where
  | ok (n : Nat)
  | error (text : String)
  deriving DecidableEq, Repr

inductive Act where
  | connect (role : Role) (c : Conn)
  | tick (secs : Nat)
  | task (io : Io)
  | reader (io : Io)
  | joinError (text : String)
  | abort

/-- The peers each port is pinned to. -/
abbrev Peers := Role → List IpNet

def admits (peers : List IpNet) (c : Conn) : Bool := peers.any fun net => net.contains c.peer

def setAt {α : Type} (f : Role → α) (role : Role) (a : α) : Role → α :=
  fun r => if r = role then a else f r

namespace State

/-- The task returns: its end of the queue and its listeners are dropped. -/
def finish (s : State) (result : Except Error Nat) : State :=
  { s with stage := .done result, queue := [], backlog := fun _ => [] }

/-- Accept the connection that has waited longest. One from another address is dropped; the
matching one is kept, and the listener is closed. -/
def acceptFrom (s : State) (peers : Peers) (role : Role) (kept : State → State) :
    Io → Option State
  | .error text => some (s.finish (.error (.other text)))
  | .ok _ =>
    match s.backlog role with
    | [] => none
    | c :: rest =>
      if admits (peers role) c then
        some (kept { s with
          backlog := setAt s.backlog role []
          served := setAt s.served role (s.served role ++ [c])
          lastActivity := s.now })
      else some { s with backlog := setAt s.backlog role rest }

/-- The next step of the task. -/
def taskStep (s : State) (peers : Peers) (io : Io) : Option State :=
  match s.stage with
  | .acceptingSource =>
    s.acceptFrom peers .backup (fun s => { s with
      stage := .acceptingTarget, sourceConnected := true, reader := some .reading }) io
  | .acceptingTarget =>
    s.acceptFrom peers .restore (fun s => { s with stage := .receiving }) io
  | .receiving =>
    match s.queue with
    | chunk :: rest => some { s with stage := .writing chunk chunk, queue := rest }
    | [] =>
      -- The queue is closed once its only sender is gone.
      match s.reader with
      | some (.finished _) | some (.joinError _) => some { s with stage := .joining }
      | _ => none
  | .writing chunk [] =>
    let total := (s.total + chunk.length) % 2 ^ 64
    some { s with stage := .receiving, total, bytes := total, lastActivity := s.now }
  | .writing chunk rest =>
    match io with
    | .error text => some (s.finish (.error (.context "relay write" (.other text))))
    | .ok 0 => some (s.finish
        (.error (.context "relay write" (.other "failed to write whole buffer"))))
    | .ok n =>
      if n ≤ rest.length then
        some { s with
          stage := .writing chunk (rest.drop n), delivered := s.delivered ++ rest.take n }
      else none
  | .joining =>
    match s.reader with
    | some (.finished (.ok ())) => some { s with stage := .closing }
    | some (.finished (.error e)) => some (s.finish (.error e))
    | some (.joinError text) =>
      some (s.finish (.error (.context "relay reader task" (.other text))))
    | _ => none
  | .closing =>
    -- How the shutdown of the connection ends is not looked at.
    if s.total = 0 then
      some (s.finish (.error (.other "relay stream closed with zero bytes transferred")))
    else some (s.finish (.ok s.total))
  | .done _ | .aborted => none

/-- What the source has still to deliver. -/
def left (s : State) : List UInt8 :=
  match s.served .backup with
  | c :: _ => c.stream.drop s.taken.length
  | [] => []

/-- The next step of the reader. A read of no bytes is the end of the stream. -/
def readerStep (s : State) (io : Io) : Option State :=
  match s.reader with
  | some .reading =>
    match io with
    | .error text =>
      some { s with reader := some (.finished (.error (.context "relay read" (.other text)))) }
    | .ok 0 => if s.left = [] then some { s with reader := some (.finished (.ok ())) } else none
    | .ok n =>
      if n ≤ chunkSize ∧ n ≤ s.left.length then
        some { s with
          reader := some (.sending (s.left.take n)), taken := s.taken ++ s.left.take n
          lastActivity := s.now }
      else none
  | some (.sending chunk) =>
    if s.stage.over then
      some { s with reader := some (.finished (.error (.other "relay writer gone"))) }
    else if s.queue.length < bufferChunks then
      some { s with reader := some .reading, queue := s.queue ++ [chunk] }
    else none
  | _ => none

/-- A port takes connections until its listener is closed. -/
def listens (s : State) (role : Role) : Bool := !s.stage.over && (s.served role).isEmpty

def step (peers : Peers) (s : State) : Act → Option State
  | .connect role c =>
    if s.listens role then some { s with backlog := setAt s.backlog role (s.backlog role ++ [c]) }
    else none
  | .tick secs => some { s with now := s.now + secs }
  | .task io => s.taskStep peers io
  | .reader io => s.readerStep io
  | .joinError text =>
    match s.reader with
    | some .reading | some (.sending _) => some { s with reader := some (.joinError text) }
    | _ => none
  | .abort =>
    if s.stage.over then none
    else some { s with stage := .aborted, queue := [], backlog := fun _ => [] }

/-- A relay that has just been spawned. -/
def spawned (now : Nat) : State := { now, lastActivity := now }

end State

end ZfsEvacuation.RelayTask
