import LanChat.Gui.WindowSteps

/-!
# The loss that a reconnection handles

A loss is reported by the receive loop and by every send that fails.  The report has no connection:
it is a signal to the controller, which queues `scheduleReconnect` for the worker, which closes the
connection that it has by then.

* `Watched`: the system, and for every report on its way the connection that it is about;
* `ClosesReported`: `scheduleReconnect` closes the connection that its report is about;
* `opensLate s x`: a window opens a connection while a report is on its way;
* `closes_reported`: in a run without such a step `scheduleReconnect` closes no other connection.
-/

namespace LanChat

namespace Gui

open EventMachine

/-- The losses on the way to the worker: signals that the controller has not handled, and calls that
the worker has not run. -/
def Window.losses (w : Window) : ℕ :=
  w.signals.count .connectionLost + w.calls.count .scheduleReconnect

/-- The worker is about to handle a loss. -/
def Window.handlesLoss (w : Window) : Bool := w.calls.head? == some .scheduleReconnect

/-- The system; `reports i` are the connections that the losses on the way in window `i` are about,
oldest first. -/
structure Watched where
  system : System
  reports : ℕ → List (Option ClientID)

namespace Watched

/-- A step of the system, or a failed send of a command that `System` does not have, of either
thread of the worker. -/
inductive Input
  | system (x : Gui.Input)
  | sendFails (i : ℕ)

variable (platform : Platform)

/-- Nothing is connected yet. -/
def start (adminCode : String) (offlineStore : Bool) (windows : ℕ) : Watched where
  system := System.start adminCode offlineStore windows
  reports := fun _ => []

/-- Window `i` runs its next call. -/
def runs (i : ℕ) : Gui.Input → Bool
  | .runCall j _ _ => j == i
  | _ => false

/-- The losses that a step has reported. -/
def newLosses (w w' : Window) : ℕ := (w'.signals.drop w.signals.length).count .connectionLost

/-- The reports of a window after a step: `scheduleReconnect` handles the oldest one, and new ones
are about the connection that the worker had. -/
def nextReports (reports : List (Option ClientID)) (handled : Bool) (w w' : Window) :
    List (Option ClientID) :=
  (if handled then reports.tail else reports) ++
    List.replicate (newLosses w w') w.worker.session

/-- One step. -/
def step (s : Watched) : Input → Watched
  | .system x =>
    { system := s.system.step platform x
      reports := fun i =>
        match s.system.windows[i]?, (s.system.step platform x).windows[i]? with
        | some w, some w' => nextReports (s.reports i) (runs i x && w.handlesLoss) w w'
        | _, _ => s.reports i }
  | .sendFails i =>
    match s.system.windows[i]? with
    | none => s
    | some w =>
      match w.worker.session with
      | none => s
      | some c =>
        { system := s.system.setWindow i { w with signals := w.signals ++ [.connectionLost] }
          reports := Function.update s.reports i (s.reports i ++ [some c]) }

/-- When the step runs `scheduleReconnect` and that closes a connection, then the loss that it
handles was the loss of this connection. -/
def ClosesReported (s : Watched) (x : Input) : Prop :=
  ∀ i attempt fails w c, x = .system (.runCall i attempt fails) → s.system.windows[i]? = some w →
    w.handlesLoss = true → w.worker.session = some c → w.worker.scheduleReconnect.session = none →
      (s.reports i).head? = some (some c)

/-- The step opens a connection of a window in which a loss is on its way. -/
def opensLate (s : Watched) : Input → Bool
  | .system (.runCall i attempt _) =>
    (s.system.windows[i]?).any fun w =>
      match w.calls with
      | .connectToServer username userCode :: _ =>
        (System.loginSession platform s.system.hub username userCode attempt).isSome &&
          decide (0 < w.losses)
      | _ => false
  | .system (.fireTimer i generation attempt) =>
    (s.system.windows[i]?).any fun w =>
      match w.worker.retryLogin with
      | some (username, userCode) =>
        w.worker.isCurrent generation &&
          (System.loginSession platform s.system.hub username userCode attempt).isSome &&
          decide (0 < w.losses)
      | none => false
  | _ => false

/-! ### The calls of the controller -/

theorem reconnects_requestActiveHistory (t : Controller) (beforeMessageID searchQuery : String) :
    (t.requestActiveHistory beforeMessageID searchQuery).2.count .scheduleReconnect = 0 := by
  unfold Controller.requestActiveHistory
  split <;> rfl

theorem reconnects_joinSelected (t : Controller) (room : String) :
    (t.joinSelected room).2.count .scheduleReconnect = 0 := by
  unfold Controller.joinSelected
  split <;> rfl

/-- No action of the user reports a loss. -/
theorem reconnects_act (t : Controller) (action : Action) :
    (t.act action).2.count .scheduleReconnect = 0 := by
  cases action with
  | selectRoom room =>
    simp only [Controller.act, Controller.selectRoom]
    split
    · simp only [List.count_append, reconnects_joinSelected, reconnects_requestActiveHistory]
    · rfl
  | selectDirectMessage userCode =>
    simp only [Controller.act, Controller.selectDirectMessage]
    split
    · exact reconnects_requestActiveHistory _ _ _
    · rfl
  | searchActiveHistory query =>
    simp only [Controller.act, Controller.searchActiveHistory]
    split
    · rfl
    · exact reconnects_requestActiveHistory _ _ _
  | sendRoomMessage content room messageID =>
    simp only [Controller.act]
    split <;> rfl
  | sendPrivateMessage content targetUserCode messageID =>
    simp only [Controller.act]
    split <;> rfl
  | createRoom room isPrivate =>
    simp only [Controller.act]
    split <;> rfl
  | refresh =>
    simp only [Controller.act]
    split <;> rfl
  | _ => rfl

/-- The controller passes a loss on, and makes none. -/
theorem reconnects_handleSignal (t : Controller) (sig : Signal) :
    (t.handleSignal sig).2.count .scheduleReconnect = [sig].count .connectionLost := by
  cases sig with
  | connected =>
    simp only [Controller.handleSignal, Controller.handleConnected, List.count_append,
      reconnects_requestActiveHistory]
    rfl
  | connectionFailed => rfl
  | connectionLost => rfl
  | historyReceived room targetUserCode isPrivate searchQuery =>
    simp only [Controller.handleSignal, Controller.handleHistory]
    generalize (if isPrivate then _ else _ : String) = expected
    split
    · rfl
    split
    · exact reconnects_requestActiveHistory _ _ _
    · rfl

/-! ### What every run keeps -/

/-- There is one report for each loss on its way, about the connection that the worker has. -/
structure WindowInv (w : Window) (reports : List (Option ClientID)) : Prop where
  length : reports.length = w.losses
  current : ∀ c, w.worker.session = some c → ∀ r ∈ reports, r = some c

/-- The same for every window. -/
def Inv (s : Watched) : Prop :=
  ∀ i w, s.system.windows[i]? = some w → WindowInv w (s.reports i)

variable {w : Window} {reports : List (Option ClientID)}

/-- A window that keeps its signals. -/
theorem nextReports_same {w' : Window} (hsignals : w'.signals.length ≤ w.signals.length)
    (handled : Bool) :
    nextReports reports handled w w' = if handled then reports.tail else reports := by
  unfold nextReports newLosses
  rw [List.drop_of_length_le hsignals, List.count_nil, List.replicate_zero, List.append_nil]

/-- A window with new signals. -/
theorem nextReports_append {w' : Window} {new : List Signal}
    (hsignals : w'.signals = w.signals ++ new) (handled : Bool) :
    nextReports reports handled w w' = (if handled then reports.tail else reports) ++
      List.replicate (new.count .connectionLost) w.worker.session := by
  unfold nextReports newLosses
  rw [hsignals, List.drop_left]

/-- A window that keeps its connection and handles no loss, with new signals and calls. -/
theorem WindowInv.append (hi : WindowInv w reports) {w' : Window} {new : List Signal}
    (hsignals : w'.signals = w.signals ++ new)
    (hcalls : w'.calls.count .scheduleReconnect = w.calls.count .scheduleReconnect)
    (hsession : ∀ c, w'.worker.session = some c → w.worker.session = some c) :
    WindowInv w' (nextReports reports false w w') := by
  rw [nextReports_append hsignals]
  refine ⟨?_, fun c hc r hr => ?_⟩
  · have hlength := hi.length
    unfold Window.losses at hlength ⊢
    rw [hsignals, hcalls, List.count_append]
    simp only [Bool.false_eq_true, if_false, List.length_append, List.length_replicate]
    omega
  · have hc' := hsession c hc
    rcases List.mem_append.1 hr with hr | hr
    · exact hi.current c hc' r (by simpa using hr)
    · rw [(List.mem_replicate.1 hr).2, hc']

/-- `scheduleReconnect` has handled the oldest report. -/
theorem WindowInv.handle (hi : WindowInv w reports) {rest : List Call}
    (hcalls : w.calls = .scheduleReconnect :: rest) {w' : Window}
    (hw' : w' = { w with worker := w.worker.scheduleReconnect, calls := rest }) :
    WindowInv w' (nextReports reports true w w') := by
  subst hw'
  rw [nextReports_same (by exact Nat.le_refl _), if_pos rfl]
  refine ⟨?_, fun c hc r hr => ?_⟩
  · have hlength := hi.length
    unfold Window.losses at hlength ⊢
    rw [hcalls, List.count_cons_self] at hlength
    rw [List.length_tail]
    dsimp only
    omega
  · refine hi.current c ?_ r (List.mem_of_mem_tail hr)
    change w.worker.scheduleReconnect.session = some c at hc
    unfold Worker.scheduleReconnect at hc
    split at hc
    · exact hc
    · dsimp only at hc
      split at hc <;> cases hc

/-- The controller has handled a signal. -/
theorem WindowInv.pass (hi : WindowInv w reports) {sig : Signal} {rest : List Signal}
    (hsignals : w.signals = sig :: rest) {w' : Window} (hrest : w'.signals = rest)
    (hworker : w'.worker = w.worker)
    (hcalls : w'.calls.count .scheduleReconnect =
      w.calls.count .scheduleReconnect + [sig].count .connectionLost) :
    WindowInv w' (nextReports reports false w w') := by
  rw [nextReports_same (by rw [hrest, hsignals]; exact Nat.le_succ _), if_neg Bool.false_ne_true]
  refine ⟨?_, fun c hc => hi.current c (hworker ▸ hc)⟩
  have hlength := hi.length
  unfold Window.losses at hlength ⊢
  rw [hsignals, show sig :: rest = [sig] ++ rest from rfl, List.count_append] at hlength
  rw [hrest, hcalls]
  omega

/-- A window with a new connection, or none, and no loss on its way. -/
theorem WindowInv.renew (hi : WindowInv w reports) {w' : Window} {new : List Signal}
    (hsignals : w'.signals = w.signals ++ new) (hnew : new.count .connectionLost = 0)
    (hcalls : w'.calls.count .scheduleReconnect = w.calls.count .scheduleReconnect)
    (hopen : w'.worker.session = none ∨ w.losses = 0) :
    WindowInv w' (nextReports reports false w w') := by
  have hlength := hi.length
  rw [nextReports_append hsignals, hnew, List.replicate_zero, List.append_nil]
  refine ⟨?_, fun c hc r hr => ?_⟩
  · rw [if_neg Bool.false_ne_true, hlength]
    unfold Window.losses
    rw [hsignals, hcalls, List.count_append, hnew, Nat.add_zero]
  · rw [if_neg Bool.false_ne_true] at hr
    rcases hopen with hnone | hzero
    · rw [hnone] at hc
      cases hc
    · rw [hzero] at hlength
      rw [List.eq_nil_of_length_eq_zero hlength] at hr
      cases hr

theorem runs_iff {i : ℕ} {x : Gui.Input} (hx : runs i x = true) :
    ∃ attempt fails, x = .runCall i attempt fails := by
  cases x with
  | runCall j attempt fails =>
    obtain rfl : j = i := beq_iff_eq.1 hx
    exact ⟨attempt, fails, rfl⟩
  | _ => cases hx

variable {platform : Platform} {s : System} {i : ℕ}

/-- What a timer does to the connection. -/
theorem session_fireTimer {worker : Worker} {generation : ℕ} (login : Option ClientID)
    {identity : String × String} (hretry : worker.retryLogin = some identity)
    (hcurrent : worker.isCurrent generation = true) :
    (worker.fireTimer generation login).1.session = login ∧
      (worker.fireTimer generation login).2.count .connectionLost = 0 := by
  have hretry' : Worker.retryLogin { worker with
      timers := worker.timers.erase generation, reconnectTimerActive := false } = some identity :=
    hretry
  unfold Worker.fireTimer Worker.retrySavedConnection
  rw [if_pos hcurrent, hretry']
  cases login with
  | some c => exact ⟨rfl, rfl⟩
  | none =>
    refine ⟨?_, rfl⟩
    simp only [Worker.connectToServerWithRetries, Option.isSome_none, Bool.false_eq_true, if_false]
    unfold Worker.scheduleReconnect
    split
    · rfl
    · dsimp only
      split <;> rfl

theorem windowInv_step (hi : WindowInv w reports) {x : Gui.Input} {w' : Window}
    (hstep : System.WindowStep platform s i w x w') (hw : s.windows[i]? = some w)
    (hopen : opensLate platform ⟨s, fun _ => reports⟩ (.system x) = false) :
    WindowInv w' (nextReports reports (runs i x && w.handlesLoss) w w') := by
  have hhead : ∀ {call : Call} {rest : List Call}, w.calls = call :: rest →
      call ≠ .scheduleReconnect → w.handlesLoss = false ∧
        rest.count .scheduleReconnect = w.calls.count .scheduleReconnect := by
    intro call rest hcalls hne
    refine ⟨?_, by rw [hcalls, List.count_cons_of_ne hne]⟩
    unfold Window.handlesLoss
    rw [hcalls]
    simpa using hne
  have hcontrol : ∀ {call : Call}, call.isControl = false → call ≠ .scheduleReconnect := by
    rintro call hcall rfl
    cases hcall
  cases hstep with
  | idle hfree =>
    have hruns : runs i x = false := by
      by_contra hx
      obtain ⟨attempt, fails, rfl⟩ := runs_iff (by simpa using hx)
      exact hfree attempt fails rfl
    rw [hruns, Bool.false_and]
    exact hi.append (List.append_nil _).symm rfl fun c hc => hc
  | empty hcalls =>
    have hquiet : w.handlesLoss = false := by
      unfold Window.handlesLoss
      rw [hcalls]
      rfl
    rw [hquiet, Bool.and_false]
    exact hi.append (List.append_nil _).symm rfl fun c hc => hc
  | act action =>
    refine hi.append (List.append_nil _).symm ?_ fun c hc => hc
    rw [List.count_append, reconnects_act, Nat.add_zero]
  | signal hsignals =>
    refine hi.pass hsignals rfl rfl ?_
    rw [List.count_append, reconnects_handleSignal]
  | lose =>
    refine hi.append rfl rfl fun c hc => ?_
    change w.worker.loseConnection.1.session = some c at hc
    unfold Worker.loseConnection at hc
    split at hc
    · exact hc
    · exact hc
  | history room targetUserCode isPrivate searchQuery =>
    exact hi.append rfl rfl fun c hc => hc
  | @connect attempt fails username userCode rest login hcalls hlogin =>
    obtain ⟨hquiet, hcount⟩ := hhead hcalls Call.noConfusion
    rw [hquiet, Bool.and_false]
    refine hi.renew rfl ?_ hcount ?_
    · cases login <;> rfl
    · cases login with
      | none => exact .inl rfl
      | some c =>
        right
        unfold opensLate at hopen
        simpa [hw, hcalls, hlogin] using hopen
  | disconnect hcalls =>
    obtain ⟨hquiet, hcount⟩ := hhead hcalls Call.noConfusion
    rw [hquiet, Bool.and_false]
    exact hi.renew (List.append_nil _).symm rfl hcount (.inl rfl)
  | reconnect hcalls =>
    have hhandles : w.handlesLoss = true := by
      unfold Window.handlesLoss
      rw [hcalls]
      rfl
    rw [hhandles, show runs i (.runCall i _ _) = true from beq_self_eq_true i]
    exact hi.handle hcalls rfl
  | drop hcalls hcall hwhy =>
    obtain ⟨hquiet, hcount⟩ := hhead hcalls (hcontrol hcall)
    rw [hquiet, Bool.and_false]
    exact hi.append (List.append_nil _).symm hcount fun c hc => hc
  | send hcalls hcall hsession hframe =>
    obtain ⟨hquiet, hcount⟩ := hhead hcalls (hcontrol hcall)
    rw [hquiet, Bool.and_false]
    exact hi.append (List.append_nil _).symm hcount fun c hc => hc
  | failed hcalls hcall hsession hframe =>
    obtain ⟨hquiet, hcount⟩ := hhead hcalls (hcontrol hcall)
    rw [hquiet, Bool.and_false]
    exact hi.append rfl hcount fun c hc => hc
  | @timer generation attempt username userCode login hretry hcurrent hlogin =>
    obtain ⟨hsession, hnew⟩ := session_fireTimer login hretry hcurrent
    refine hi.renew rfl hnew rfl ?_
    rw [show (_ : Window).worker.session = _ from hsession]
    cases login with
    | none => exact .inl rfl
    | some c =>
      right
      unfold opensLate at hopen
      simpa [hw, hretry, hcurrent, hlogin] using hopen
  | oldTimer generation attempt hold =>
    refine hi.append (List.append_nil _).symm rfl fun c hc => ?_
    rwa [← (System.worker_oldTimer hold).1]

theorem inv_start (adminCode : String) (offlineStore : Bool) (windows : ℕ) :
    Inv (start adminCode offlineStore windows) := by
  intro i w hw
  have hnew : w = {} := List.eq_of_mem_replicate (List.mem_of_getElem? hw)
  subst hnew
  exact ⟨rfl, fun _ _ _ hr => by cases hr⟩

theorem inv_step (platform : Platform) (s : Watched) (x : Input)
    (hopen : s.opensLate platform x = false) (hi : Inv s) : Inv (s.step platform x) := by
  intro i w' hw'
  cases x with
  | system x =>
    change (s.system.step platform x).windows[i]? = some w' at hw'
    cases hw : s.system.windows[i]? with
    | none =>
      have hlength := List.getElem?_eq_none_iff.1 hw
      rw [← System.length_windows platform x] at hlength
      rw [List.getElem?_eq_none hlength] at hw'
      cases hw'
    | some w =>
      obtain ⟨w'', hw'', hstep⟩ := System.windowStep platform hw x
      obtain rfl : w'' = w' := Option.some_injective _ (hw''.symm.trans hw')
      have hnext : (s.step platform (.system x)).reports i =
          nextReports (s.reports i) (runs i x && w.handlesLoss) w w'' := by
        simp only [step, hw, hw']
      rw [hnext]
      exact windowInv_step (hi i w hw) hstep hw hopen
  | sendFails j =>
    simp only [step] at hw' ⊢
    split at hw'
    · exact hi i w' hw'
    rename_i v hv
    split at hw'
    · exact hi i w' hw'
    rename_i c hc
    change (s.system.setWindow j _).windows[i]? = some w' at hw'
    rw [System.getElem?_setWindow hv] at hw'
    change WindowInv w' (Function.update s.reports j (s.reports j ++ [some c]) i)
    by_cases hij : j = i
    · subst hij
      rw [if_pos rfl] at hw'
      obtain rfl := Option.some_injective _ hw'
      rw [Function.update_self]
      have hold := hi j v hv
      refine ⟨?_, fun d hd r hr => ?_⟩
      · have hlength := hold.length
        unfold Window.losses at hlength ⊢
        simp only [List.length_append, List.count_append, List.length_singleton,
          List.count_singleton_self]
        omega
      · rcases List.mem_append.1 hr with hr | hr
        · exact hold.current d hd r hr
        · rw [List.mem_singleton.1 hr, ← hc]
          exact hd
    · rw [if_neg hij] at hw'
      rw [Function.update_of_ne (Ne.symm hij)]
      exact hi i w' hw'

theorem closesReported_step (s : Watched) (x : Input) (hi : Inv s) :
    ClosesReported s x := by
  rintro i attempt fails w c - hw hhandles hc -
  obtain ⟨hlength, hcurrent⟩ := hi i w hw
  have hpos : 0 < w.losses := by
    unfold Window.losses Window.handlesLoss at *
    have hmem : Call.scheduleReconnect ∈ w.calls := List.mem_of_head? (beq_iff_eq.1 hhandles)
    have hcount := List.count_pos_iff.2 hmem
    omega
  cases hreports : s.reports i with
  | nil =>
    rw [hreports] at hlength
    rw [← hlength] at hpos
    cases hpos
  | cons r rest =>
    rw [hcurrent c hc r (hreports ▸ List.mem_cons_self)]
    rfl

/-- In every run in which no connection is opened while a loss is on its way, `scheduleReconnect`
closes only the connection whose loss was reported. -/
theorem closes_reported (platform : Platform) (adminCode : String) (offlineStore : Bool)
    (windows : ℕ) (xs : List Input)
    (hopen : Along (step platform) (fun s x => s.opensLate platform x = false)
      (start adminCode offlineStore windows) xs) :
    Along (step platform) ClosesReported (start adminCode offlineStore windows) xs :=
  along_of_invariant (step platform) (inv_step platform)
    (fun s x hi _ => closesReported_step s x hi) (inv_start adminCode offlineStore windows) hopen

/-! ### Alice's connection is lost -/

/-- Alice connects, and her worker sends the requests of a new session. -/
def connects : List Input :=
  [.act 0 (.connectToServer "Alice" "alice"), .runCall 0 (.answered {}) false, .handleSignal 0,
    .runCall 0 .unreachable false, .runCall 0 .unreachable false,
    .runCall 0 .unreachable false].map .system

/-- The receive loop ends, the controller hears of it, and the worker runs `scheduleReconnect`. -/
def losesConnection : List Input :=
  [.loseConnection 0, .handleSignal 0, .runCall 0 .unreachable false].map .system

theorem closes_reported_alice :
    Along (step Hub.samplePlatform) ClosesReported (start "" false 1)
      (connects ++ losesConnection) :=
  closes_reported Hub.samplePlatform "" false 1 _ (by decide +kernel)

/-- The server and the receive loop see the connection end, and Alice connects again before the
controller hears of it. -/
def connectsAgain : List Input :=
  connects ++ [.server ⟨.unregister 0, {}⟩, .loseConnection 0,
    .act 0 (.connectToServer "Alice" "alice"), .runCall 0 (.answered {}) false,
    .handleSignal 0].map .system

/-- `scheduleReconnect` closes the new connection. -/
theorem new_connection_closed :
    ¬ ∀ (platform : Platform) (adminCode : String) (offlineStore : Bool) (windows : ℕ)
      (xs : List Input), Along (step platform) ClosesReported
        (start adminCode offlineStore windows) xs := by
  intro hclosed
  have hlast := (hclosed Hub.samplePlatform "" false 1
    (connectsAgain ++ [.system (.runCall 0 .unreachable false)])).append.2.1
  have hwindow : ((run (step Hub.samplePlatform) (start "" false 1)
      connectsAgain).system.windows[0]?).any (fun w => w.handlesLoss &&
        w.worker.session == some 1 && w.worker.scheduleReconnect.session == none) = true := by
    decide +kernel
  have hreport : ((run (step Hub.samplePlatform) (start "" false 1)
      connectsAgain).reports 0).head? = some (some 0) := by decide +kernel
  obtain ⟨w, hw, hfacts⟩ := (Option.any_eq_true _ _).1 hwindow
  simp only [Bool.and_eq_true, beq_iff_eq] at hfacts
  have hclosing := hlast 0 .unreachable false w 1 rfl hw hfacts.1.1 hfacts.1.2 hfacts.2
  rw [hreport] at hclosing
  exact absurd hclosing (by decide)

end Watched

end Gui

end LanChat
