import LanChat.Gui.Desktop
import LanChat.Gui.MlsOperations

/-!
# Clients with encrypted groups and the server

Any number of workers, the server, and the frames on the way between them.

* a connection is ordered: the frames of one session are taken in the order in which they were put;
* `loseFrames` is the loss of a connection with everything on it, in both directions; what was
  taken before is not lost;
* `server` is any other event of the server, except the MLS frames of other client programs: every
  such frame comes from a worker.
-/

namespace LanChat

namespace Gui

open GoStrings EventMachine

/-- The slots of the worker that the user interface calls. -/
def MlsInput.isSlot : MlsInput → Bool
  | .connectToServer .. | .retrySavedConnection .. | .receive .. => false
  | _ => true

/-- The session that a login has ended with. -/
def MlsInput.login : MlsInput → Option ClientID
  | .connectToServer _ _ login | .retrySavedConnection login => login
  | _ => none

/-- The workers, the server, and the frames on the way, oldest first; `sessions` are the sessions
that the workers have opened. -/
structure MlsNet where
  hub : Hub
  workers : List MlsWorker
  sessions : List ClientID := []
  toServer : List (ClientID × Message) := []
  toClient : List (ClientID × Message) := []

namespace MlsNet

/-- One step of the system. -/
inductive Input
  | call (i : ℕ) (input : MlsInput) (d : MlsDraw)
  | connectToServer (i : ℕ) (username userCode : String) (attempt : Attempt) (d : MlsDraw)
  | retrySavedConnection (i : ℕ) (attempt : Attempt) (d : MlsDraw)
  | receive (i : ℕ) (d : MlsDraw)
  | readFrame (c : ClientID) (env : Env) (limited muted : Bool)
  | writePump (c : ClientID)
  | loseFrames (c : ClientID)
  | server (e : Hub.Event)

/-- The frame of a session that is taken next. -/
def nextFrame (frames : List (ClientID × Message)) (c : ClientID) : Option Message :=
  (frames.find? fun f => f.1 == c).map Prod.snd

/-- The frames after the next one of a session has been taken. -/
def dropNext (frames : List (ClientID × Message)) (c : ClientID) : List (ClientID × Message) :=
  frames.eraseP fun f => f.1 == c

/-- The frame is one of the MLS protocol. -/
def isMlsFrame (m : Message) : Bool :=
  match m.type with
  | .mlsKeyPackagePublish | .mlsKeyPackageFetch | .mlsGroupProposal | .mlsGroupCommit
  | .mlsGroupWelcome | .mlsGroupWelcomeAccept => true
  | _ => false

/-- The event is for the workers' own steps: a frame of one of their sessions, an MLS frame, or
their write pump. -/
def isOwn (net : MlsNet) (e : Hub.Event) : Bool :=
  match e.input with
  | .frame c m _ _ => net.sessions.contains c || isMlsFrame m
  | .writePump c => net.sessions.contains c
  | _ => false

/-- Nothing is connected yet. -/
def start (adminCode : String) (offlineStore : Bool) (workers : ℕ) : MlsNet where
  hub := Hub.start adminCode offlineStore
  workers := List.replicate workers {}

variable (platform : Platform)

/-- Worker `i` takes an input, and its frames go on the connection. -/
def stepWorker (net : MlsNet) (i : ℕ) (x : MlsInput × MlsDraw) : MlsNet :=
  match net.workers[i]? with
  | none => net
  | some w =>
    let (w', frames) := w.step platform x
    { net with
      workers := net.workers.set i w'
      toServer := net.toServer ++
        (match w'.session with
          | some c => frames.map (c, ·)
          | none => []) }

/-- The server and the sessions after an attempt to log in. -/
def afterLogin (net : MlsNet) (username userCode : String) (attempt : Attempt) : MlsNet :=
  { net with
    hub := System.loginHub platform net.hub username userCode attempt
    sessions := net.sessions ++
      (System.loginSession platform net.hub username userCode attempt).toList }

/-- One step of the system. -/
def step (net : MlsNet) : Input → MlsNet
  | .call i input d => if input.isSlot then net.stepWorker platform i (input, d) else net
  | .connectToServer i username userCode attempt d =>
    (net.afterLogin platform username userCode attempt).stepWorker platform i
      (.connectToServer username userCode
        (System.loginSession platform net.hub username userCode attempt), d)
  | .retrySavedConnection i attempt d =>
    match net.workers[i]? with
    | none => net
    | some w =>
      if w.saved then
        (net.afterLogin platform w.username w.userCode attempt).stepWorker platform i
          (.retrySavedConnection
            (System.loginSession platform net.hub w.username w.userCode attempt), d)
      else net
  | .receive i d =>
    match (net.workers[i]?).bind MlsWorker.session with
    | none => net
    | some c =>
      match nextFrame net.toClient c with
      | none => net
      | some m =>
        { net with toClient := dropNext net.toClient c }.stepWorker platform i (.receive m, d)
  | .readFrame c env limited muted =>
    match nextFrame net.toServer c with
    | none => net
    | some m =>
      if net.hub.readsFrames c then
        { net with
          hub := net.hub.step platform ⟨.frame c m limited muted, env⟩
          toServer := dropNext net.toServer c }
      else net
  | .writePump c =>
    match (net.hub.registry.client? c).bind fun obj => obj.send.head? with
    | none => net
    | some m =>
      if net.hub.alive c then
        { net with
          hub := net.hub.step platform ⟨.writePump c, {}⟩
          toClient := net.toClient ++ [(c, m)] }
      else net
  | .loseFrames c =>
    { net with
      toServer := net.toServer.filter fun f => f.1 ≠ c
      toClient := net.toClient.filter fun f => f.1 ≠ c }
  | .server e => if net.isOwn e then net else { net with hub := net.hub.step platform e }

end MlsNet

end Gui

end LanChat
