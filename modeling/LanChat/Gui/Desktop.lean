import LanChat.Gui.Controller

/-!
# Desktop clients and the server

Any number of windows, each a controller and its worker with the two queues between them, the wires
from their sessions to the server, and the server.

* a wire is the ordered stream of frames that a session has sent and its read pump has not read;
  frames that are lost with their connection stay on it for ever;
* `server` is any other event of the server, frames of other client programs included;
* the frames of the windows' own sessions reach the server only through their wires.
-/

namespace LanChat

namespace Gui

open GoStrings

/-- A controller, its worker, and the queues between them. -/
structure Window where
  controller : Controller := {}
  worker : Worker := {}
  calls : List Call := []
  signals : List Signal := []
  deriving DecidableEq, Repr

/-- The windows and the server; `sessions` are the sessions that the windows have opened. -/
structure System where
  hub : Hub
  windows : List Window
  sessions : List ClientID
  wires : ClientID → List Message

/-- How an attempt to log in ends: the server is not reached, the answer is lost on the way back,
or the answer arrives. -/
inductive Attempt
  | unreachable
  | unanswered (env : Env)
  | answered (env : Env)

/-- One step of the system. -/
inductive Input
  | act (i : ℕ) (action : Action)
  | runCall (i : ℕ) (attempt : Attempt) (sendFails : Bool)
  | fireTimer (i generation : ℕ) (attempt : Attempt)
  | loseConnection (i : ℕ)
  | receiveHistory (i : ℕ) (room targetUserCode : String) (isPrivate : Bool) (searchQuery : String)
  | handleSignal (i : ℕ)
  | readFrame (c : ClientID) (env : Env) (limited muted : Bool)
  | server (e : Hub.Event)

namespace System

variable (platform : Platform)

/-- Nothing is connected yet. -/
def start (adminCode : String) (offlineStore : Bool) (windows : ℕ) : System where
  hub := Hub.start adminCode offlineStore
  windows := List.replicate windows {}
  sessions := []
  wires := fun _ => []

/-- A write to one window. -/
def setWindow (s : System) (i : ℕ) (w : Window) : System :=
  { s with windows := s.windows.set i w }

/-- The server after an attempt to log in. -/
def loginHub (h : Hub) (username userCode : String) : Attempt → Hub
  | .unreachable => h
  | .unanswered env | .answered env => h.step platform ⟨.login username userCode, env⟩

/-- The session that the client has after the attempt: the client object that the server made. -/
def loginSession (h : Hub) (username userCode : String) : Attempt → Option ClientID
  | .unreachable | .unanswered _ => none
  | .answered env =>
    if h.registry.objects.length <
        (h.step platform ⟨.login username userCode, env⟩).registry.objects.length then
      some h.registry.objects.length
    else none

/-- The windows' sessions after an attempt. -/
def afterLogin (s : System) (username userCode : String) (attempt : Attempt) : System :=
  { s with
    hub := loginHub platform s.hub username userCode attempt
    sessions := s.sessions ++ (loginSession platform s.hub username userCode attempt).toList }

/-- A frame goes on the wire of a session. -/
def putFrame (s : System) (c : ClientID) (frame : Message) : System :=
  { s with wires := Function.update s.wires c (s.wires c ++ [frame]) }

/-- The worker of window `i` runs the call at the head of its queue. -/
def runCall (s : System) (i : ℕ) (attempt : Attempt) (sendFails : Bool) : System :=
  match s.windows[i]? with
  | none => s
  | some w =>
    match w.calls with
    | [] => s
    | call :: calls =>
      let w := { w with calls }
      match call with
      | .connectToServer username userCode =>
        let (worker, signals) := w.worker.connectToServer username userCode
          (loginSession platform s.hub username userCode attempt)
        (s.afterLogin platform username userCode attempt).setWindow i
          { w with worker, signals := w.signals ++ signals }
      | .disconnectFromServer => s.setWindow i { w with worker := w.worker.disconnectFromServer }
      | .scheduleReconnect => s.setWindow i { w with worker := w.worker.scheduleReconnect }
      | call =>
        match w.worker.session, call.frame with
        | some c, some frame =>
          if sendFails then s.setWindow i { w with signals := w.signals ++ [.connectionLost] }
          else (s.putFrame c frame).setWindow i w
        | _, _ => s.setWindow i w

theorem runCall_frame {s : System} {i : ℕ} {w : Window} {call : Call} {calls : List Call}
    (hw : s.windows[i]? = some w) (hcalls : w.calls = call :: calls)
    (hconnect : ∀ username userCode, call ≠ .connectToServer username userCode)
    (hdisconnect : call ≠ .disconnectFromServer) (hreconnect : call ≠ .scheduleReconnect)
    (attempt : Attempt) (sendFails : Bool) :
    s.runCall platform i attempt sendFails =
      match w.worker.session, call.frame with
      | some c, some frame =>
        if sendFails then
          s.setWindow i { w with calls, signals := w.signals ++ [.connectionLost] }
        else (s.putFrame c frame).setWindow i { w with calls }
      | _, _ => s.setWindow i { w with calls } := by
  unfold runCall
  rw [hw]
  dsimp only
  rw [hcalls]
  cases call with
  | connectToServer username userCode => exact absurd rfl (hconnect username userCode)
  | disconnectFromServer => exact absurd rfl hdisconnect
  | scheduleReconnect => exact absurd rfl hreconnect
  | _ => rfl

/-- A timer of the worker of window `i` fires. -/
def fireTimer (s : System) (i generation : ℕ) (attempt : Attempt) : System :=
  match s.windows[i]? with
  | none => s
  | some w =>
    match w.worker.retryLogin with
    | some (username, userCode) =>
      if w.worker.isCurrent generation then
        let (worker, signals) := w.worker.fireTimer generation
          (loginSession platform s.hub username userCode attempt)
        (s.afterLogin platform username userCode attempt).setWindow i
          { w with worker, signals := w.signals ++ signals }
      else s.setWindow i { w with worker := (w.worker.fireTimer generation none).1 }
    | none => s.setWindow i { w with worker := (w.worker.fireTimer generation none).1 }

/-- The next frame of a session is read, when its read pump is up to it. -/
def readFrame (s : System) (c : ClientID) (env : Env) (limited muted : Bool) : System :=
  match s.wires c with
  | [] => s
  | frame :: rest =>
    if s.hub.readsFrames c then
      { s with
        hub := s.hub.step platform ⟨.frame c frame limited muted, env⟩
        wires := Function.update s.wires c rest }
    else s

/-- The event is a frame of a session that a window has opened. -/
def isOwnFrame (s : System) (e : Hub.Event) : Bool :=
  match e.input with
  | .frame c _ _ _ => s.sessions.contains c
  | _ => false

/-- One step of the system. -/
def step (s : System) : Input → System
  | .act i action =>
    match s.windows[i]? with
    | none => s
    | some w =>
      let (controller, calls) := w.controller.act action
      s.setWindow i { w with controller, calls := w.calls ++ calls }
  | .runCall i attempt sendFails => s.runCall platform i attempt sendFails
  | .fireTimer i generation attempt => s.fireTimer platform i generation attempt
  | .loseConnection i =>
    match s.windows[i]? with
    | none => s
    | some w =>
      let (worker, signals) := w.worker.loseConnection
      s.setWindow i { w with worker, signals := w.signals ++ signals }
  | .receiveHistory i room targetUserCode isPrivate searchQuery =>
    match s.windows[i]? with
    | none => s
    | some w => s.setWindow i { w with
        signals := w.signals ++ [.historyReceived room targetUserCode isPrivate searchQuery] }
  | .handleSignal i =>
    match s.windows[i]? with
    | none => s
    | some w =>
      match w.signals with
      | [] => s
      | signal :: signals =>
        let (controller, calls) := w.controller.handleSignal signal
        s.setWindow i { w with controller, calls := w.calls ++ calls, signals }
  | .readFrame c env limited muted => s.readFrame platform c env limited muted
  | .server e => if s.isOwnFrame e then s else { s with hub := s.hub.step platform e }

end System

end Gui

end LanChat
