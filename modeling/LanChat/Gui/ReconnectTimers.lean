import LanChat.Gui.Worker
import LanChat.Lib.Run

/-!
# The timers of a reconnection (`gui_connection_worker.cpp`, `reconnect_policy.cpp`)

A timer of `scheduleReconnect` cannot be taken back: it fires, and then it compares its generation
with that of the policy.

* `LoginDraw`: how the attempts of a login end, `LocalHost`: what `connectToLocalHost` finds;
* `connectToLocalHost`, and `connectToServer` where the OpenSSL runtime may be missing;
* `ReconnectWorker`: the worker with the number of its attempts to connect;
* `Timed`: the invariant, kept by every slot and every timer;
* `timers_die_with_session`: what holds of every run.

The generations of the policy are counted without a bound.
-/

namespace LanChat

namespace Gui

open EventMachine

/-- `connection::LoginResult`, with the session of a login. -/
inductive LoginResult
  | success (c : ClientID)
  | retryableFailure
  | rejected
  deriving DecidableEq, Repr

/-- What a login draws from outside: whether `OpenSslRuntime::prepare` finds the runtime, and how
its attempts end. -/
structure LoginDraw where
  prepared : Bool := true
  result : ℕ → LoginResult := fun _ => .retryableFailure

/-- The loop of `connectToServerWithRetries` from an attempt on: how many attempts are made, and the
session that they end with. -/
def loginLoop (result : ℕ → LoginResult) : ℕ → ℕ → ℕ × Option ClientID
  | _, 0 => (0, none)
  | attempt, remaining + 1 =>
    match result attempt with
    | .success c => (1, some c)
    | .rejected => (1, none)
    | .retryableFailure =>
      let (made, login) := loginLoop result (attempt + 1) remaining
      (made + 1, login)

/-- The attempts of `connectToServerWithRetries` and their session. -/
def LoginDraw.outcome (d : LoginDraw) (attempts : ℕ) : ℕ × Option ClientID :=
  if d.prepared then loginLoop d.result 0 (max 1 attempts) else (0, none)

/-- What `connectToLocalHost` finds: files, probes of the port, and the process of the server. -/
structure LocalHost where
  serverExists : Bool := true
  identityReady : Bool := false
  listening : Bool := false
  stillListening : Bool := false
  started : Bool := true
  becomesReady : Bool := true
  running : Bool := true
  identityWritten : Bool := true
  deriving DecidableEq, Repr

/-- `kLocalHostRetryAttempts`. -/
def localHostRetryAttempts : ℕ := 8

/-- How many attempts `connectToLocalHost` allows, unless it gives up before the first. -/
def LocalHost.attempts (h : LocalHost) : Option ℕ :=
  if !h.serverExists then none
  else if h.listening && h.identityReady then some 2
  else if h.stillListening then none
  else if !h.started then none
  else if !h.becomesReady then none
  else if !h.running then none
  else if !h.identityWritten then none
  else some localHostRetryAttempts

namespace Worker

/-- What `connectToServer` and `connectToLocalHost` do before the first attempt. -/
def beginConnect (w : Worker) (username userCode : String) : Worker :=
  { w with
    running := false
    explicitDisconnect := false
    reconnectPolicy := w.reconnectPolicy.markConnected
    reconnectTimerActive := false
    savedConnection := some (username, userCode) }

/-- `connectToServerWithRetries`; without the runtime the connection stays as it is. -/
def connectWithRetries (w : Worker) (d : LoginDraw) (attempts : ℕ) : Worker × List Signal :=
  if d.prepared then w.connectToServerWithRetries (d.outcome attempts).2 true
  else (w, [.connectionFailed])

/-- `connectToLocalHost`. -/
def connectToLocalHost (w : Worker) (username userCode : String) (h : LocalHost) (d : LoginDraw) :
    Worker × List Signal :=
  let w := { w.beginConnect username userCode with session := none }
  match h.attempts with
  | none => (w, [.connectionFailed])
  | some attempts => w.connectWithRetries d attempts

/-- A login that finds the runtime is the one attempt of `connectToServer`. -/
theorem connectToServer_eq (w : Worker) (username userCode : String) {d : LoginDraw}
    (hprepared : d.prepared = true) : (w.beginConnect username userCode).connectWithRetries d 1 =
      w.connectToServer username userCode (d.outcome 1).2 := by
  unfold connectWithRetries
  rw [if_pos hprepared]
  rfl

end Worker

/-- A slot of the worker runs, a timer fires, or the connection is lost. -/
inductive ReconnectInput
  | connectToServer (username userCode : String) (d : LoginDraw)
  | connectToLocalHost (username userCode : String) (h : LocalHost) (d : LoginDraw)
  | disconnectFromServer
  | scheduleReconnect
  | fireTimer (generation : ℕ) (d : LoginDraw)
  | loseConnection

/-- The input is an explicit call to connect. -/
def ReconnectInput.isConnect : ReconnectInput → Bool
  | .connectToServer _ _ _ | .connectToLocalHost _ _ _ _ => true
  | _ => false

namespace Worker

/-- The worker after an input.  A retry without the runtime ends as one without a session, for
`scheduleReconnect` closes the connection that is left. -/
def reconnectStep (w : Worker) : ReconnectInput → Worker × List Signal
  | .connectToServer username userCode d => (w.beginConnect username userCode).connectWithRetries d 1
  | .connectToLocalHost username userCode h d => w.connectToLocalHost username userCode h d
  | .disconnectFromServer => (w.disconnectFromServer, [])
  | .scheduleReconnect => (w.scheduleReconnect, [])
  | .fireTimer generation d => w.fireTimer generation (d.outcome 1).2
  | .loseConnection => w.loseConnection

/-- How many attempts to connect an input leads to. -/
def attemptsOf (w : Worker) : ReconnectInput → ℕ
  | .connectToServer _ _ d => (d.outcome 1).1
  | .connectToLocalHost _ _ h d => h.attempts.elim 0 fun attempts => (d.outcome attempts).1
  | .fireTimer generation d =>
    if w.isCurrent generation && w.retryLogin.isSome then (d.outcome 1).1 else 0
  | _ => 0

end Worker

/-- The worker, and how many attempts to connect it has made. -/
structure ReconnectWorker where
  worker : Worker := {}
  attempts : ℕ := 0

namespace ReconnectWorker

/-- One step. -/
def step (s : ReconnectWorker) (x : ReconnectInput) : ReconnectWorker where
  worker := (s.worker.reconnectStep x).1
  attempts := s.attempts + s.worker.attemptsOf x

end ReconnectWorker

namespace Worker

/-! ### The timer of the current generation -/

/-- One timer of the current generation while `reconnectTimerActive_`, none otherwise; no timer is
of a generation to come. -/
structure Timed (w : Worker) : Prop where
  current : w.timers.count w.reconnectPolicy.generation = if w.reconnectTimerActive then 1 else 0
  old : ∀ generation ∈ w.timers, generation ≤ w.reconnectPolicy.generation

variable {w w' : Worker}

theorem timed_empty : Timed {} where
  current := rfl
  old := by
    intro generation h
    cases h

theorem Timed.congr (h : Timed w) (htimers : w'.timers = w.timers)
    (hgeneration : w'.reconnectPolicy.generation = w.reconnectPolicy.generation)
    (hactive : w'.reconnectTimerActive = w.reconnectTimerActive) : Timed w' where
  current := by
    rw [htimers, hgeneration, hactive]
    exact h.current
  old := by
    rw [htimers, hgeneration]
    exact h.old

/-- A new generation leaves every timer behind. -/
theorem Timed.advance (h : Timed w) (htimers : w'.timers = w.timers)
    (hgeneration : w'.reconnectPolicy.generation = w.reconnectPolicy.generation + 1)
    (hactive : w'.reconnectTimerActive = false) : Timed w' where
  current := by
    rw [htimers, hgeneration, hactive]
    refine List.count_eq_zero.2 fun hmem => ?_
    have hle := h.old _ hmem
    omega
  old := by
    rw [htimers, hgeneration]
    intro generation hmem
    exact (h.old generation hmem).trans (Nat.le_succ _)

theorem Timed.connectToServerWithRetries (h : Timed w) (login : Option ClientID) (report : Bool) :
    Timed (w.connectToServerWithRetries login report).1 := by
  unfold Worker.connectToServerWithRetries
  cases login with
  | none => exact h.congr rfl rfl rfl
  | some c => exact h.congr rfl rfl rfl

theorem Timed.connectWithRetries (h : Timed w) (d : LoginDraw) (attempts : ℕ) :
    Timed (w.connectWithRetries d attempts).1 := by
  unfold Worker.connectWithRetries
  split
  · exact h.connectToServerWithRetries _ _
  · exact h

/-- The timer that is scheduled is the only one of its generation. -/
theorem Timed.scheduleReconnect (h : Timed w) : Timed w.scheduleReconnect := by
  unfold Worker.scheduleReconnect
  split
  · exact h
  rename_i hready
  have hidle : w.reconnectTimerActive = false := by
    cases hactive : w.reconnectTimerActive with
    | false => rfl
    | true => simp [hactive] at hready
  dsimp only
  unfold ReconnectPolicy.scheduleNextAttempt
  by_cases hactive : w.reconnectPolicy.active = true
  · rw [if_pos hactive]
    refine ⟨?_, fun generation hmem => ?_⟩
    · have hzero := h.current
      rw [hidle, if_neg Bool.false_ne_true] at hzero
      dsimp only
      rw [List.count_append, hzero, List.count_singleton_self]
      rfl
    · rcases List.mem_append.1 hmem with hmem | hmem
      · exact h.old generation hmem
      · rw [List.mem_singleton.1 hmem]
  · rw [if_neg hactive]
    exact h.congr rfl rfl rfl

theorem Timed.retrySavedConnection (h : Timed w) (login : Option ClientID)
    (hidle : w.reconnectTimerActive = false) : Timed (w.retrySavedConnection login).1 := by
  unfold Worker.retrySavedConnection
  cases w.retryLogin with
  | none => exact h
  | some saved =>
    dsimp only
    cases login with
    | none => exact (h.connectToServerWithRetries none false).scheduleReconnect
    | some c => exact h.advance rfl rfl hidle

/-- A timer that fires is gone: the current one before the retry, an older one without effect. -/
theorem Timed.fireTimer (h : Timed w) (generation : ℕ) (login : Option ClientID) :
    Timed (w.fireTimer generation login).1 := by
  have hold : ∀ g ∈ w.timers.erase generation, g ≤ w.reconnectPolicy.generation :=
    fun g hg => h.old g (List.mem_of_mem_erase hg)
  unfold Worker.fireTimer
  split
  · rename_i hcurrent
    unfold Worker.isCurrent at hcurrent
    rw [Bool.and_eq_true, List.contains_iff_mem, beq_iff_eq] at hcurrent
    obtain ⟨hmem, rfl⟩ := hcurrent
    refine Timed.retrySavedConnection ⟨?_, hold⟩ login rfl
    dsimp only
    rw [List.count_erase_self, h.current]
    split
    · rfl
    · rfl
  · refine ⟨?_, hold⟩
    dsimp only
    by_cases hgeneration : generation = w.reconnectPolicy.generation
    · -- there is no such timer
      subst hgeneration
      rename_i hcurrent
      have hnot : w.reconnectPolicy.generation ∉ w.timers := by
        intro hmem
        exact hcurrent (by rw [isCurrent, List.contains_iff_mem.2 hmem, beq_self_eq_true]; rfl)
      rw [List.erase_of_not_mem hnot]
      exact h.current
    · rw [List.count_erase_of_ne (Ne.symm hgeneration)]
      exact h.current

theorem Timed.reconnectStep (h : Timed w) (x : ReconnectInput) : Timed (w.reconnectStep x).1 := by
  have hbegin : ∀ username userCode, Timed (w.beginConnect username userCode) :=
    fun _ _ => h.advance rfl rfl rfl
  cases x with
  | connectToServer username userCode d => exact (hbegin username userCode).connectWithRetries d 1
  | connectToLocalHost username userCode host d =>
    have hclosed : Timed { w.beginConnect username userCode with session := none } :=
      (hbegin username userCode).congr rfl rfl rfl
    unfold Worker.reconnectStep Worker.connectToLocalHost
    dsimp only
    cases host.attempts with
    | none => exact hclosed
    | some attempts => exact hclosed.connectWithRetries d attempts
  | disconnectFromServer => exact h.advance rfl rfl rfl
  | scheduleReconnect => exact h.scheduleReconnect
  | fireTimer generation d => exact h.fireTimer generation _
  | loseConnection =>
    unfold Worker.reconnectStep Worker.loseConnection
    dsimp only
    split
    · exact h.congr rfl rfl rfl
    · exact h

/-! ### After an explicit disconnection -/

/-- Only the timer of the current generation leads to an attempt. -/
theorem attemptsOf_fireTimer {generation : ℕ} (d : LoginDraw)
    (hold : generation ≠ w.reconnectPolicy.generation) :
    w.attemptsOf (.fireTimer generation d) = 0 := by
  have hnot : w.isCurrent generation = false := by
    rw [isCurrent, beq_eq_false_iff_ne.2 hold, Bool.and_false]
  unfold attemptsOf
  dsimp only
  rw [hnot, Bool.false_and]
  exact if_neg Bool.false_ne_true

theorem retryLogin_of_disconnected (h : w.explicitDisconnect = true) : w.retryLogin = none :=
  if_pos h

theorem disconnected_retry (h : w.explicitDisconnect = true) (login : Option ClientID) :
    (w.retrySavedConnection login).1.explicitDisconnect = true := by
  unfold retrySavedConnection
  rw [retryLogin_of_disconnected h]
  exact h

/-- Without a call to connect a worker that has been disconnected stays so and attempts nothing. -/
theorem disconnected_step (h : w.explicitDisconnect = true) {x : ReconnectInput}
    (hx : x.isConnect = false) :
    (w.reconnectStep x).1.explicitDisconnect = true ∧ w.attemptsOf x = 0 := by
  cases x with
  | connectToServer username userCode d => cases hx
  | connectToLocalHost username userCode host d => cases hx
  | disconnectFromServer => exact ⟨rfl, rfl⟩
  | scheduleReconnect =>
    refine ⟨?_, rfl⟩
    unfold reconnectStep scheduleReconnect
    rw [h, Bool.true_or, Bool.true_or, if_pos rfl]
    exact h
  | fireTimer generation d =>
    constructor
    · unfold reconnectStep fireTimer
      dsimp only
      split
      · refine disconnected_retry ?_ _
        exact h
      · exact h
    · unfold attemptsOf
      dsimp only
      rw [retryLogin_of_disconnected h, Option.isSome_none, Bool.and_false]
      exact if_neg Bool.false_ne_true
  | loseConnection =>
    refine ⟨?_, rfl⟩
    unfold reconnectStep loseConnection
    dsimp only
    split
    · exact h
    · exact h

end Worker

namespace ReconnectWorker

variable {s : ReconnectWorker}

theorem attempts_step (s : ReconnectWorker) (x : ReconnectInput) :
    (s.step x).attempts = s.attempts + s.worker.attemptsOf x := rfl

theorem disconnected_run (h : s.worker.explicitDisconnect = true) {xs : List ReconnectInput}
    (hxs : ∀ x ∈ xs, x.isConnect = false) : (run step s xs).attempts = s.attempts := by
  induction xs generalizing s with
  | nil => rfl
  | cons x xs ih =>
    obtain ⟨hstep, hzero⟩ := Worker.disconnected_step h (hxs x List.mem_cons_self)
    rw [run_cons, ih hstep fun y hy => hxs y (List.mem_cons_of_mem _ hy)]
    rw [attempts_step, hzero, Nat.add_zero]

/-- In every run: one timer of the current generation while `reconnectTimerActive_` and none
otherwise, those of older generations attempt nothing, and after a disconnection there is no attempt
before the next call to connect. -/
theorem timers_die_with_session (xs : List ReconnectInput) :
    (run step {} xs).worker.timers.count (run step {} xs).worker.reconnectPolicy.generation =
      (if (run step {} xs).worker.reconnectTimerActive then 1 else 0) ∧
    (∀ generation ∈ (run step {} xs).worker.timers,
      generation ≠ (run step {} xs).worker.reconnectPolicy.generation →
        generation < (run step {} xs).worker.reconnectPolicy.generation ∧ ∀ d,
          (step (run step {} xs) (.fireTimer generation d)).attempts =
            (run step {} xs).attempts) ∧
    ∀ before after, xs = before ++ .disconnectFromServer :: after →
      (∀ x ∈ after, x.isConnect = false) →
        (run step {} xs).attempts = (run step {} before).attempts := by
  have htimed : (run step {} xs).worker.Timed := by
    refine run_invariant step (I := fun s => s.worker.Timed) ?_ Worker.timed_empty xs
    exact fun s x h => h.reconnectStep x
  refine ⟨htimed.current, fun generation hmem hold => ⟨?_, fun d => ?_⟩, ?_⟩
  · exact Nat.lt_of_le_of_ne (htimed.old generation hmem) hold
  · rw [attempts_step, Worker.attemptsOf_fireTimer d hold, Nat.add_zero]
  · rintro before after rfl hafter
    rw [run_append, run_cons, disconnected_run rfl hafter]
    rfl

end ReconnectWorker

end Gui

end LanChat
