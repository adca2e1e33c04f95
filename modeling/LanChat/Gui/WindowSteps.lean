import LanChat.Gui.Desktop

/-!
# What a step of the system does to one window

`WindowStep` lists it: a step leaves a window alone, or it is an action of the user, a signal that
the controller handles, a call that the worker runs, a timer, the end of the receive loop, or a page
of history that has arrived.  `windowStep` says that there is nothing else, and `serverStep` says
what the step does to the server and the wires.
-/

namespace LanChat

namespace Gui

open GoStrings

/-- The call opens or closes the connection; every other call sends a frame. -/
def Call.isControl : Call → Bool
  | .connectToServer _ _ | .disconnectFromServer | .scheduleReconnect => true
  | _ => false

namespace System

variable {s : System} {i : ℕ} {w w' : Window}

/-- What a step does to window `i`. -/
inductive WindowStep (platform : Platform) (s : System) (i : ℕ) (w : Window) :
    Input → Window → Prop
  | idle {x : Input} (hfree : ∀ attempt fails, x ≠ .runCall i attempt fails) :
      WindowStep platform s i w x w
  | empty {attempt : Attempt} {fails : Bool} (hcalls : w.calls = []) :
      WindowStep platform s i w (.runCall i attempt fails) w
  | act (action : Action) :
      WindowStep platform s i w (.act i action)
        { w with
          controller := (w.controller.act action).1
          calls := w.calls ++ (w.controller.act action).2 }
  | signal {sig : Signal} {rest : List Signal} (hsignals : w.signals = sig :: rest) :
      WindowStep platform s i w (.handleSignal i)
        { w with
          controller := (w.controller.handleSignal sig).1
          calls := w.calls ++ (w.controller.handleSignal sig).2
          signals := rest }
  | lose : WindowStep platform s i w (.loseConnection i)
      { w with
        worker := w.worker.loseConnection.1
        signals := w.signals ++ w.worker.loseConnection.2 }
  | history (room targetUserCode : String) (isPrivate : Bool) (searchQuery : String) :
      WindowStep platform s i w (.receiveHistory i room targetUserCode isPrivate searchQuery)
        { w with
          signals := w.signals ++ [.historyReceived room targetUserCode isPrivate searchQuery] }
  | connect {attempt : Attempt} {fails : Bool} {username userCode : String} {rest : List Call}
      {login : Option ClientID} (hcalls : w.calls = .connectToServer username userCode :: rest)
      (hlogin : loginSession platform s.hub username userCode attempt = login) :
      WindowStep platform s i w (.runCall i attempt fails)
        { w with
          worker := (w.worker.connectToServer username userCode login).1
          signals := w.signals ++ (w.worker.connectToServer username userCode login).2
          calls := rest }
  | disconnect {attempt : Attempt} {fails : Bool} {rest : List Call}
      (hcalls : w.calls = .disconnectFromServer :: rest) :
      WindowStep platform s i w (.runCall i attempt fails)
        { w with worker := w.worker.disconnectFromServer, calls := rest }
  | reconnect {attempt : Attempt} {fails : Bool} {rest : List Call}
      (hcalls : w.calls = .scheduleReconnect :: rest) :
      WindowStep platform s i w (.runCall i attempt fails)
        { w with worker := w.worker.scheduleReconnect, calls := rest }
  | drop {attempt : Attempt} {fails : Bool} {call : Call} {rest : List Call}
      (hcalls : w.calls = call :: rest) (hcall : call.isControl = false)
      (hwhy : w.worker.session = none ∨ call.frame = none) :
      WindowStep platform s i w (.runCall i attempt fails) { w with calls := rest }
  | send {attempt : Attempt} {call : Call} {rest : List Call} {c : ClientID} {frame : Message}
      (hcalls : w.calls = call :: rest) (hcall : call.isControl = false)
      (hsession : w.worker.session = some c) (hframe : call.frame = some frame) :
      WindowStep platform s i w (.runCall i attempt false) { w with calls := rest }
  | failed {attempt : Attempt} {call : Call} {rest : List Call} {c : ClientID} {frame : Message}
      (hcalls : w.calls = call :: rest) (hcall : call.isControl = false)
      (hsession : w.worker.session = some c) (hframe : call.frame = some frame) :
      WindowStep platform s i w (.runCall i attempt true)
        { w with calls := rest, signals := w.signals ++ [.connectionLost] }
  | timer (generation : ℕ) (attempt : Attempt) {username userCode : String}
      {login : Option ClientID} (hretry : w.worker.retryLogin = some (username, userCode))
      (hcurrent : w.worker.isCurrent generation = true)
      (hlogin : loginSession platform s.hub username userCode attempt = login) :
      WindowStep platform s i w (.fireTimer i generation attempt)
        { w with
          worker := (w.worker.fireTimer generation login).1
          signals := w.signals ++ (w.worker.fireTimer generation login).2 }
  | oldTimer (generation : ℕ) (attempt : Attempt)
      (hold : w.worker.retryLogin = none ∨ w.worker.isCurrent generation = false) :
      WindowStep platform s i w (.fireTimer i generation attempt)
        { w with worker := (w.worker.fireTimer generation none).1 }

theorem getElem?_setWindow (hw : s.windows[i]? = some w) (j : ℕ) :
    (s.setWindow i w').windows[j]? = if i = j then some w' else s.windows[j]? := by
  have hlt : i < s.windows.length := (List.getElem?_eq_some_iff.1 hw).1
  change (s.windows.set i w')[j]? = _
  rw [List.getElem?_set]
  by_cases hij : i = j
  · subst hij
    rw [if_pos rfl, if_pos hlt, if_pos rfl]
  · rw [if_neg hij, if_neg hij]

@[simp] theorem length_setWindow (j : ℕ) (v : Window) :
    (s.setWindow j v).windows.length = s.windows.length := List.length_set

/-- The windows stay the same ones. -/
theorem length_windows (platform : Platform) (x : Input) :
    (s.step platform x).windows.length = s.windows.length := by
  cases x with
  | runCall j attempt fails =>
    simp only [step, runCall]
    split
    · rfl
    split
    · rfl
    split
    · exact length_setWindow j _
    · exact length_setWindow j _
    · exact length_setWindow j _
    split
    · split
      · exact length_setWindow j _
      · exact length_setWindow j _
    · exact length_setWindow j _
  | fireTimer j generation attempt =>
    simp only [step, fireTimer]
    split
    · rfl
    split
    · split
      · exact length_setWindow j _
      · exact length_setWindow j _
    · exact length_setWindow j _
  | handleSignal j =>
    simp only [step]
    split
    · rfl
    split
    · rfl
    · exact length_setWindow j _
  | readFrame c env limited muted =>
    simp only [step, readFrame]
    split
    · rfl
    split
    · rfl
    · rfl
  | server e =>
    simp only [step]
    split
    · rfl
    · rfl
  | _ =>
    simp only [step]
    split
    · rfl
    · exact length_setWindow _ _

/-- A step that writes one window. -/
theorem windowStep_set {platform : Platform} {t : System} {x : Input} {j : ℕ} {v' : Window}
    (hw : t.windows[i]? = some w)
    (hother : j ≠ i → ∀ attempt fails, x ≠ .runCall i attempt fails)
    (hv : j = i → WindowStep platform s i w x v') :
    ∃ w', (t.setWindow j v').windows[i]? = some w' ∧ WindowStep platform s i w x w' := by
  by_cases hij : j = i
  · subst hij
    exact ⟨v', by rw [getElem?_setWindow hw, if_pos rfl], hv rfl⟩
  · exact ⟨w, (List.getElem?_set_ne hij).trans hw, .idle (hother hij)⟩

theorem windowStep_runCall (platform : Platform) (hw : s.windows[i]? = some w) (j : ℕ)
    (attempt : Attempt) (fails : Bool) :
    ∃ w', (s.runCall platform j attempt fails).windows[i]? = some w' ∧
      WindowStep platform s i w (.runCall j attempt fails) w' := by
  have hother : j ≠ i → ∀ a f, (.runCall j attempt fails : Input) ≠ .runCall i a f := by
    rintro hij a f ⟨⟩
    exact hij rfl
  cases hv : s.windows[j]? with
  | none =>
    simp only [runCall, hv]
    refine ⟨w, hw, .idle (hother ?_)⟩
    rintro rfl
    cases hv.symm.trans hw
  | some v =>
    have hsame : j = i → v = w := by
      rintro rfl
      exact Option.some_injective _ (hv.symm.trans hw)
    cases hcalls : v.calls with
    | nil =>
      simp only [runCall, hv, hcalls]
      refine ⟨w, hw, ?_⟩
      by_cases hij : j = i
      · obtain rfl := hsame hij
        subst hij
        exact .empty hcalls
      · exact .idle (hother hij)
    | cons call rest =>
      have hsend : call.isControl = false →
          ∃ w', (s.runCall platform j attempt fails).windows[i]? = some w' ∧
            WindowStep platform s i w (.runCall j attempt fails) w' := by
        intro hcall
        have hconnect : ∀ username userCode, call ≠ .connectToServer username userCode := by
          rintro _ _ rfl
          cases hcall
        have hdisconnect : call ≠ .disconnectFromServer := by
          rintro rfl
          cases hcall
        have hreconnect : call ≠ .scheduleReconnect := by
          rintro rfl
          cases hcall
        rw [runCall_frame platform hv hcalls hconnect hdisconnect hreconnect]
        cases hsession : v.worker.session with
        | none =>
          refine windowStep_set hw hother fun hij => ?_
          obtain rfl := hsame hij
          subst hij
          exact .drop hcalls hcall (.inl hsession)
        | some c =>
          cases hframe : call.frame with
          | none =>
            refine windowStep_set hw hother fun hij => ?_
            obtain rfl := hsame hij
            subst hij
            exact .drop hcalls hcall (.inr hframe)
          | some frame =>
            cases fails with
            | true =>
              refine windowStep_set hw hother fun hij => ?_
              obtain rfl := hsame hij
              subst hij
              exact .failed hcalls hcall hsession hframe
            | false =>
              refine windowStep_set (t := s.putFrame c frame) hw hother fun hij => ?_
              obtain rfl := hsame hij
              subst hij
              exact .send hcalls hcall hsession hframe
      cases call with
      | connectToServer username userCode =>
        simp only [runCall, hv, hcalls]
        refine windowStep_set (t := s.afterLogin platform username userCode attempt) hw hother ?_
        intro hij
        obtain rfl := hsame hij
        subst hij
        exact .connect hcalls rfl
      | disconnectFromServer =>
        simp only [runCall, hv, hcalls]
        refine windowStep_set hw hother fun hij => ?_
        obtain rfl := hsame hij
        subst hij
        exact .disconnect hcalls
      | scheduleReconnect =>
        simp only [runCall, hv, hcalls]
        refine windowStep_set hw hother fun hij => ?_
        obtain rfl := hsame hij
        subst hij
        exact .reconnect hcalls
      | _ => exact hsend rfl

theorem windowStep_fireTimer (platform : Platform) (hw : s.windows[i]? = some w)
    (j generation : ℕ) (attempt : Attempt) :
    ∃ w', (s.fireTimer platform j generation attempt).windows[i]? = some w' ∧
      WindowStep platform s i w (.fireTimer j generation attempt) w' := by
  have hother : ∀ a f, (.fireTimer j generation attempt : Input) ≠ .runCall i a f :=
    fun _ _ => Input.noConfusion
  unfold fireTimer
  cases hv : s.windows[j]? with
  | none => exact ⟨w, hw, .idle hother⟩
  | some v =>
    have hsame : j = i → v = w := by
      rintro rfl
      exact Option.some_injective _ (hv.symm.trans hw)
    dsimp only
    cases hretry : v.worker.retryLogin with
    | none =>
      refine windowStep_set hw (fun _ => hother) fun hij => ?_
      obtain rfl := hsame hij
      subst hij
      exact .oldTimer generation attempt (.inl hretry)
    | some login =>
      obtain ⟨username, userCode⟩ := login
      dsimp only
      cases hcurrent : v.worker.isCurrent generation with
      | false =>
        refine windowStep_set hw (fun _ => hother) fun hij => ?_
        obtain rfl := hsame hij
        subst hij
        exact .oldTimer generation attempt (.inr hcurrent)
      | true =>
        refine windowStep_set (t := s.afterLogin platform username userCode attempt) hw
          (fun _ => hother) fun hij => ?_
        obtain rfl := hsame hij
        subst hij
        exact .timer generation attempt hretry hcurrent rfl

/-- Every step does one of these things to a window. -/
theorem windowStep (platform : Platform) (hw : s.windows[i]? = some w) (x : Input) :
    ∃ w', (s.step platform x).windows[i]? = some w' ∧ WindowStep platform s i w x w' := by
  have hfree : (∀ a f, x ≠ .runCall i a f) → ∃ w', s.windows[i]? = some w' ∧
      WindowStep platform s i w x w' := fun hfree => ⟨w, hw, .idle hfree⟩
  have hsame : ∀ {j : ℕ} {v : Window}, s.windows[j]? = some v → j = i → v = w := by
    rintro j v hv rfl
    exact Option.some_injective _ (hv.symm.trans hw)
  cases x with
  | act j action =>
    simp only [step]
    split
    · exact hfree fun _ _ => Input.noConfusion
    · rename_i v hv
      refine windowStep_set hw (fun _ _ _ => Input.noConfusion) fun hij => ?_
      obtain rfl := hsame hv hij
      subst hij
      exact .act action
  | runCall j attempt fails => exact windowStep_runCall platform hw j attempt fails
  | fireTimer j generation attempt => exact windowStep_fireTimer platform hw j generation attempt
  | loseConnection j =>
    simp only [step]
    split
    · exact hfree fun _ _ => Input.noConfusion
    · rename_i v hv
      refine windowStep_set hw (fun _ _ _ => Input.noConfusion) fun hij => ?_
      obtain rfl := hsame hv hij
      subst hij
      exact .lose
  | receiveHistory j room targetUserCode isPrivate searchQuery =>
    simp only [step]
    split
    · exact hfree fun _ _ => Input.noConfusion
    · rename_i v hv
      refine windowStep_set hw (fun _ _ _ => Input.noConfusion) fun hij => ?_
      obtain rfl := hsame hv hij
      subst hij
      exact .history room targetUserCode isPrivate searchQuery
  | handleSignal j =>
    simp only [step]
    split
    · exact hfree fun _ _ => Input.noConfusion
    · rename_i v hv
      cases hsignals : v.signals with
      | nil => exact hfree fun _ _ => Input.noConfusion
      | cons sig rest =>
        refine windowStep_set hw (fun _ _ _ => Input.noConfusion) fun hij => ?_
        obtain rfl := hsame hv hij
        subst hij
        exact .signal hsignals
  | readFrame c env limited muted =>
    refine ⟨w, ?_, .idle fun _ _ => Input.noConfusion⟩
    simp only [step, readFrame]
    split
    · exact hw
    split
    · exact hw
    · exact hw
  | server e =>
    refine ⟨w, ?_, .idle fun _ _ => Input.noConfusion⟩
    simp only [step]
    split
    · exact hw
    · exact hw

/-- A timer that opens no connection leaves the connection alone. -/
theorem worker_oldTimer {worker : Worker} {generation : ℕ}
    (hold : worker.retryLogin = none ∨ worker.isCurrent generation = false) :
    (worker.fireTimer generation none).1.session = worker.session ∧
      (worker.fireTimer generation none).1.running = worker.running := by
  unfold Worker.fireTimer
  split
  · rename_i hcurrent
    have hretry : Worker.retryLogin { worker with
        timers := worker.timers.erase generation, reconnectTimerActive := false } = none :=
      hold.resolve_right (by rw [hcurrent]; exact Bool.noConfusion)
    unfold Worker.retrySavedConnection
    rw [hretry]
    exact ⟨rfl, rfl⟩
  · exact ⟨rfl, rfl⟩

/-! ### The server and the wires -/

/-- What a step does to the server and the wires. -/
inductive ServerStep (platform : Platform) (s s' : System) (x : Input) : Prop
  | quiet (hhub : s'.hub = s.hub) (hwires : ∀ c, ∃ frames, s'.wires c = s.wires c ++ frames)
  | login (username userCode : String) (env : Env)
      (hhub : s'.hub = s.hub.step platform ⟨.login username userCode, env⟩)
      (hwires : s'.wires = s.wires)
  | event (e : Hub.Event) (hx : x = .server e) (hhub : s'.hub = s.hub.step platform e)
      (hwires : s'.wires = s.wires)
  | frame (c : ClientID) (env : Env) (limited muted : Bool) (frame : Message) (rest : List Message)
      (hx : x = .readFrame c env limited muted) (hwire : s.wires c = frame :: rest)
      (hreads : s.hub.readsFrames c = true)
      (hhub : s'.hub = s.hub.step platform ⟨.frame c frame limited muted, env⟩)
      (hwires : s'.wires = Function.update s.wires c rest)

theorem serverStep_quiet {platform : Platform} {s' : System} {x : Input} (hhub : s'.hub = s.hub)
    (hwires : s'.wires = s.wires) : ServerStep platform s s' x :=
  .quiet hhub fun c => ⟨[], by rw [hwires, List.append_nil]⟩

theorem serverStep_login {platform : Platform} {s' : System} {x : Input} {username userCode : String}
    {attempt : Attempt} (hhub : s'.hub = loginHub platform s.hub username userCode attempt)
    (hwires : s'.wires = s.wires) : ServerStep platform s s' x := by
  cases attempt with
  | unreachable => exact serverStep_quiet hhub hwires
  | unanswered env => exact .login username userCode env hhub hwires
  | answered env => exact .login username userCode env hhub hwires

theorem serverStep (platform : Platform) (s : System) (x : Input) :
    ServerStep platform s (s.step platform x) x := by
  cases x with
  | runCall j attempt fails =>
    simp only [step, runCall]
    split
    · exact serverStep_quiet rfl rfl
    split
    · exact serverStep_quiet rfl rfl
    split
    · exact serverStep_login rfl rfl
    · exact serverStep_quiet rfl rfl
    · exact serverStep_quiet rfl rfl
    split
    · rename_i c frame _ _
      split
      · exact serverStep_quiet rfl rfl
      · refine .quiet rfl fun d => ?_
        change ∃ frames, Function.update s.wires c (s.wires c ++ [frame]) d = _
        by_cases hcd : d = c
        · subst hcd
          exact ⟨[frame], Function.update_self ..⟩
        · exact ⟨[], by rw [Function.update_of_ne hcd, List.append_nil]⟩
    · exact serverStep_quiet rfl rfl
  | fireTimer j generation attempt =>
    simp only [step, fireTimer]
    split
    · exact serverStep_quiet rfl rfl
    split
    · split
      · exact serverStep_login rfl rfl
      · exact serverStep_quiet rfl rfl
    · exact serverStep_quiet rfl rfl
  | readFrame c env limited muted =>
    simp only [step, readFrame]
    split
    · exact serverStep_quiet rfl rfl
    rename_i frame rest hwire
    split
    · rename_i hreads
      exact .frame c env limited muted frame rest rfl hwire hreads rfl rfl
    · exact serverStep_quiet rfl rfl
  | server e =>
    simp only [step]
    split
    · exact serverStep_quiet rfl rfl
    · exact .event e rfl rfl rfl
  | handleSignal j =>
    simp only [step]
    split
    · exact serverStep_quiet rfl rfl
    split
    · exact serverStep_quiet rfl rfl
    · exact serverStep_quiet rfl rfl
  | _ =>
    simp only [step]
    split
    · exact serverStep_quiet rfl rfl
    · exact serverStep_quiet rfl rfl

/-- A call that is sent puts its frame on the wire. -/
theorem wires_send (platform : Platform) (hw : s.windows[i]? = some w) {attempt : Attempt}
    {call : Call} {rest : List Call} {c : ClientID} {frame : Message}
    (hcalls : w.calls = call :: rest) (hcall : call.isControl = false)
    (hsession : w.worker.session = some c) (hframe : call.frame = some frame) :
    (s.step platform (.runCall i attempt false)).wires c = s.wires c ++ [frame] := by
  have hput : Function.update s.wires c (s.wires c ++ [frame]) c = s.wires c ++ [frame] :=
    Function.update_self ..
  simp only [step, runCall, hw, hcalls]
  cases call with
  | connectToServer username userCode => cases hcall
  | disconnectFromServer => cases hcall
  | scheduleReconnect => cases hcall
  | _ =>
    simp only [hsession, hframe]
    exact hput

end System

end Gui

end LanChat
