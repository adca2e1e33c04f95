import LanChat.Gui.WindowSteps
import LanChat.Hub.HistoryLog

/-!
# The history request that a window waits for

`historyLoading_` keeps a controller from asking for history twice.  The request passes the queue of
the worker, the wire, the Hub and its history worker, and the page comes back through the send queue
of the session and the signals of the worker.

* `HistoryNet`: the system, with the messages of the server read in order by the windows;
* `outstanding s i w`: a request of window `i` is somewhere on this way;
* `losesRequest s x`: the step drops a request, or answers it with something else than a page;
* `loading_settles`: in a run without such a step a window without a request is not loading.
-/

namespace LanChat

namespace Gui

open EventMachine

/-- `requestHistory`. -/
def Call.isHistory : Call → Bool
  | .requestHistory .. => true
  | _ => false

/-- `historyReceived`. -/
def Signal.isHistory : Signal → Bool
  | .historyReceived .. => true
  | _ => false

/-- The system; `received i` is the number of messages that window `i` has read on its connection. -/
structure HistoryNet where
  system : System
  received : ℕ → ℕ

namespace HistoryNet

/-- A step of the system, or the receive loop of a window reads its next message. -/
inductive Input
  | system (x : Gui.Input)
  | receive (i : ℕ)

variable (platform : Platform)

/-- Nothing is connected yet. -/
def start (adminCode : String) (offlineStore : Bool) (windows : ℕ) : HistoryNet where
  system := System.start adminCode offlineStore windows
  received := fun _ => 0

/-- What window `i` has still to read of it. -/
def unread (s : HistoryNet) (i : ℕ) (c : ClientID) : List Message :=
  (s.system.hub.sentTo c).drop (s.received i)

/-- Nothing has been read on a new connection. -/
def nextReceived (received : ℕ) (w w' : Window) : ℕ :=
  if w'.worker.session = w.worker.session then received else 0

/-- The system takes a step of its own. -/
def stepSystem (s : HistoryNet) (x : Gui.Input) : HistoryNet where
  system := s.system.step platform x
  received := fun i =>
    match s.system.windows[i]?, (s.system.step platform x).windows[i]? with
    | some w, some w' => nextReceived (s.received i) w w'
    | _, _ => s.received i

/-- One step; pages come from the server only. -/
def step (s : HistoryNet) : Input → HistoryNet
  | .system (.receiveHistory ..) => s
  | .system x => s.stepSystem platform x
  | .receive i =>
    match s.system.windows[i]? with
    | none => s
    | some w =>
      match w.worker.session with
      | none => s
      | some c =>
        if !w.worker.running then s
        else match s.unread i c with
          | [] => s
          | m :: _ =>
            { system :=
                if m.type = .historyResponse then
                  s.system.step platform
                    (.receiveHistory i m.room m.targetUserCode m.isPrivate m.searchQuery)
                else s.system
              received := Function.update s.received i (s.received i + 1) }

/-- A request is on the wire or with the Hub, or its page is on the way back. -/
def awaits (s : HistoryNet) (i : ℕ) (c : ClientID) : Bool :=
  (s.system.wires c).any (fun frame => frame.type == .historyRequest) ||
    s.system.hub.pendingJobs.any (fun job => job.client == c) ||
    (s.unread i c).any fun m => m.type == .historyResponse

/-- The same for the connection that a window receives on. -/
def inFlight (s : HistoryNet) (i : ℕ) (w : Window) : Bool :=
  w.worker.session.any fun c => w.worker.running && s.awaits i c

/-- A history request is queued to the worker, in flight, or answered and not yet processed. -/
def outstanding (s : HistoryNet) (i : ℕ) (w : Window) : Bool :=
  w.calls.any Call.isHistory || s.inFlight i w || w.signals.any Signal.isHistory

/-- A window without a request is not loading. -/
def Settled (s : HistoryNet) : Prop :=
  ∀ i w, s.system.windows[i]? = some w → s.outstanding i w = false →
    w.controller.historyLoading = false

/-- A loading window receives on the connection. -/
def waits (s : HistoryNet) (c : ClientID) : Bool :=
  s.system.windows.any fun w =>
    w.controller.historyLoading && w.worker.running && w.worker.session == some c

/-- The step loses the request of a loading window: the worker has no ready connection or fails to
send, the connection is closed or lost, or the server does not answer with a page. -/
def losesRequest (s : HistoryNet) : Input → Bool
  | .system (.runCall i _ fails) =>
    (s.system.windows[i]?).any fun w => w.controller.historyLoading &&
      match w.calls with
      | [] => false
      | call :: _ =>
        (call.isHistory && (w.worker.session.isNone || !w.worker.running || fails)) ||
          (call.isControl && s.inFlight i w)
  | .system (.fireTimer i generation _) =>
    (s.system.windows[i]?).any fun w => w.controller.historyLoading &&
      w.worker.isCurrent generation && w.worker.retryLogin.isSome && s.inFlight i w
  | .system (.loseConnection i) =>
    (s.system.windows[i]?).any fun w => w.controller.historyLoading && s.inFlight i w
  | .system (.readFrame c _ limited _) =>
    s.waits c && s.system.hub.readsFrames c && (s.system.wires c).head?.any fun frame =>
      frame.type == .historyRequest && !s.system.hub.takesHistory c frame limited
  | .system (.server e) =>
    match e.input with
    | .historyResult => s.system.hub.historyResults.head?.any fun result =>
        s.waits result.job.client && !s.system.hub.sendsPage result.job.client
    | .restart _ => s.system.hub.pendingJobs.any fun job => s.waits job.client
    | _ => false
  | _ => false

/-! ### The controller -/

theorem loading_requestActiveHistory (t : Controller) (beforeMessageID searchQuery : String)
    (hload : (t.requestActiveHistory beforeMessageID searchQuery).1.historyLoading = true) :
    t.historyLoading = true ∨
      (t.requestActiveHistory beforeMessageID searchQuery).2.any Call.isHistory = true := by
  unfold Controller.requestActiveHistory at hload ⊢
  split at hload
  · rename_i hstop
    exact .inl hload
  · rename_i hgo
    right
    rw [if_neg hgo]
    rfl

theorem loading_joinSelected (t : Controller) (room : String) :
    (t.joinSelected room).1.historyLoading = t.historyLoading := by
  unfold Controller.joinSelected
  split <;> rfl

/-- An action that makes a controller load queues a request. -/
theorem loading_act (t : Controller) (action : Action)
    (hload : (t.act action).1.historyLoading = true) :
    t.historyLoading = true ∨ (t.act action).2.any Call.isHistory = true := by
  cases action with
  | selectRoom room =>
    simp only [Controller.act, Controller.selectRoom] at hload ⊢
    split at hload
    · rename_i hconnected
      rw [if_pos hconnected]
      rcases loading_requestActiveHistory _ _ _ hload with hold | hnew
      · rw [loading_joinSelected] at hold
        exact .inl hold
      · right
        rw [List.any_append, hnew, Bool.or_true]
    · exact .inl hload
  | selectDirectMessage userCode =>
    simp only [Controller.act, Controller.selectDirectMessage] at hload ⊢
    split at hload
    · rename_i hconnected
      rw [if_pos hconnected]
      exact loading_requestActiveHistory _ _ _ hload
    · exact .inl hload
  | searchActiveHistory query =>
    simp only [Controller.act, Controller.searchActiveHistory] at hload ⊢
    split at hload
    · exact .inl hload
    · rename_i hidle
      rw [if_neg hidle]
      exact loading_requestActiveHistory _ _ _ hload
  | sendRoomMessage content room messageID =>
    simp only [Controller.act] at hload ⊢
    split at hload <;> exact .inl hload
  | sendPrivateMessage content targetUserCode messageID =>
    simp only [Controller.act] at hload ⊢
    split at hload <;> exact .inl hload
  | createRoom room isPrivate =>
    simp only [Controller.act] at hload ⊢
    split at hload <;> exact .inl hload
  | refresh =>
    simp only [Controller.act] at hload ⊢
    split at hload <;> exact .inl hload
  | _ => exact .inl hload

/-- A page ends the loading; otherwise a signal that makes a controller load queues a request. -/
theorem loading_handleSignal (t : Controller) (sig : Signal)
    (hload : (t.handleSignal sig).1.historyLoading = true) :
    (t.historyLoading = true ∧ sig.isHistory = false) ∨
      (t.handleSignal sig).2.any Call.isHistory = true := by
  cases sig with
  | connected =>
    simp only [Controller.handleSignal, Controller.handleConnected] at hload ⊢
    rcases loading_requestActiveHistory _ _ _ hload with hold | hnew
    · dsimp only at hold
      split at hold
      · exact .inl ⟨hold, rfl⟩
      · cases hold
    · right
      rw [List.any_append, hnew, Bool.or_true]
  | connectionFailed => exact .inl ⟨hload, rfl⟩
  | connectionLost => exact .inl ⟨hload, rfl⟩
  | historyReceived room targetUserCode isPrivate searchQuery =>
    right
    simp only [Controller.handleSignal, Controller.handleHistory] at hload ⊢
    generalize (if isPrivate then _ else _ : String) = expected at hload ⊢
    split at hload
    · cases hload
    rename_i hopen
    rw [if_neg hopen]
    split at hload
    · rename_i hquery
      rw [if_pos hquery]
      rcases loading_requestActiveHistory _ _ _ hload with hold | hnew
      · cases hold
      · exact hnew
    · cases hload

/-! ### A request on its way -/

variable {platform : Platform} {s : HistoryNet} {i : ℕ} {w : Window} {c : ClientID}

theorem awaits_iff : s.awaits i c = true ↔
    (∃ frame ∈ s.system.wires c, frame.type = .historyRequest) ∨
      (∃ job ∈ s.system.hub.pendingJobs, job.client = c) ∨
        ∃ m ∈ s.unread i c, m.type = .historyResponse := by
  unfold awaits
  simp only [Bool.or_eq_true, List.any_eq_true, beq_iff_eq, or_assoc]

theorem waits_of_window (hw : s.system.windows[i]? = some w)
    (hload : w.controller.historyLoading = true) (hrunning : w.worker.running = true)
    (hc : w.worker.session = some c) : s.waits c = true := by
  unfold waits
  refine List.any_eq_true.2 ⟨w, List.mem_of_getElem? hw, ?_⟩
  rw [hload, hrunning, hc]
  simp

/-- Pages that are on the way back stay there. -/
theorem unread_append {s' : HistoryNet} {out : List (ClientID × Message)}
    (hsent : s'.system.hub.registry.sent = s.system.hub.registry.sent ++ out)
    (hreceived : s'.received i = s.received i) {m : Message} (hm : m ∈ s.unread i c) :
    m ∈ s'.unread i c := by
  unfold unread at hm ⊢
  rw [Hub.sentTo_append hsent, hreceived, List.drop_append]
  exact List.mem_append_left _ hm

/-- A step of the system that does not lose the request leaves it on its way. -/
theorem awaits_step (hs : Registry.Sound s.system.hub.registry) {x : Gui.Input} {s' : HistoryNet}
    (hsystem : s'.system = s.system.step platform x) (hreceived : s'.received i = s.received i)
    (hread : s.received i ≤ (s.system.hub.sentTo c).length)
    (hkeep : s.losesRequest (.system x) = false) (hwaits : s.waits c = true)
    (ha : s.awaits i c = true) : s'.awaits i c = true := by
  have hgrows : ∀ {e : Hub.Event}, s'.system.hub = s.system.hub.step platform e →
      ∀ m ∈ s.unread i c, m ∈ s'.unread i c := by
    intro e hhub m hm
    obtain ⟨out, hout⟩ := Hub.sent_step platform hs e
    exact unread_append (by rw [hhub, hout]) hreceived hm
  -- an event of the Hub that neither answers a request nor ends the process
  have hevent : ∀ {e : Hub.Event}, s'.system.hub = s.system.hub.step platform e →
      e.input ≠ .historyResult → e.input.isRestart = false →
      (∃ job ∈ s.system.hub.pendingJobs, job.client = c) →
      ∃ job ∈ s'.system.hub.pendingJobs, job.client = c := by
    rintro e hhub hresult hlive ⟨job, hjob, hclient⟩
    rw [hhub]
    exact ⟨job, Hub.kept_step platform hs e hresult hlive hjob, hclient⟩
  rw [awaits_iff] at ha ⊢
  cases System.serverStep platform s.system x with
  | quiet hhub hwires =>
    rw [← hsystem] at hhub hwires
    rcases ha with ⟨frame, hframe, ht⟩ | ⟨job, hjob, hclient⟩ | ⟨m, hm, ht⟩
    · obtain ⟨frames, hwires⟩ := hwires c
      exact .inl ⟨frame, hwires ▸ List.mem_append_left _ hframe, ht⟩
    · exact .inr (.inl ⟨job, hhub ▸ hjob, hclient⟩)
    · have hsent : s'.system.hub.registry.sent = s.system.hub.registry.sent ++ [] := by
        rw [hhub, List.append_nil]
      exact .inr (.inr ⟨m, unread_append hsent hreceived hm, ht⟩)
  | login username userCode env hhub hwires =>
    rw [← hsystem] at hhub hwires
    rcases ha with hframe | hjob | ⟨m, hm, ht⟩
    · exact .inl (hwires ▸ hframe)
    · exact .inr (.inl (hevent hhub Hub.Input.noConfusion rfl hjob))
    · exact .inr (.inr ⟨m, hgrows hhub m hm, ht⟩)
  | event e hx hhub hwires =>
    rw [← hsystem] at hhub hwires
    subst hx
    rcases ha with hframe | ⟨job, hjob, hclient⟩ | ⟨m, hm, ht⟩
    · exact .inl (hwires ▸ hframe)
    · simp only [losesRequest] at hkeep
      cases hinput : e.input with
      | historyResult =>
        rw [hinput] at hkeep
        have hsends : s.system.hub.sendsPage job.client = true := by
          unfold Hub.sendsPage
          cases hhead : s.system.hub.historyResults.head? with
          | none => rfl
          | some result =>
            rw [hhead] at hkeep
            rw [Option.all_some]
            by_cases hsame : result.job.client = job.client
            · rw [Option.any_some, hsame, hclient, hwaits] at hkeep
              have hpage : s.system.hub.sendsPage c = true := by simpa using hkeep
              unfold Hub.sendsPage at hpage
              rw [hhead, Option.all_some] at hpage
              rw [hclient]
              exact hpage
            · simp [hsame]
        have hstep : s.system.hub.step platform e = s.system.hub.handleHistoryResult := by
          simp only [Hub.step, hinput]
        rw [hstep] at hhub
        rcases Hub.kept_handleHistoryResult hsends hjob with hjob | ⟨m, ht, hsent⟩
        · exact .inr (.inl ⟨job, hhub ▸ hjob, hclient⟩)
        · refine .inr (.inr ⟨m, ?_, ht⟩)
          unfold unread
          rw [hhub, Hub.sentTo_append hsent, hreceived, List.drop_append_of_le_length hread]
          refine List.mem_append_right _ ?_
          simp [hclient]
      | restart adminCode =>
        rw [hinput] at hkeep
        have hlost := List.any_eq_false.1 hkeep job hjob
        rw [hclient, hwaits] at hlost
        exact absurd rfl hlost
      | _ =>
        exact .inr (.inl (hevent hhub (by rw [hinput]; exact Hub.Input.noConfusion)
          (by rw [hinput]; rfl) ⟨job, hjob, hclient⟩))
    · exact .inr (.inr ⟨m, hgrows hhub m hm, ht⟩)
  | frame d env limited muted first rest hx hwire hreads hhub hwires =>
    rw [← hsystem] at hhub hwires
    subst hx
    rcases ha with ⟨frame, hframe, ht⟩ | hjob | ⟨m, hm, ht⟩
    · by_cases hcd : c = d
      · subst hcd
        rw [hwire] at hframe
        rcases List.mem_cons.1 hframe with rfl | hframe
        · -- the Hub takes the request
          simp only [losesRequest, hwaits, hreads, hwire] at hkeep
          have htakes : s.system.hub.takesHistory c frame limited = true := by
            simpa [ht] using hkeep
          obtain ⟨job, hjob, hclient⟩ := Hub.pending_of_takesHistory platform
            (e := ⟨.frame c frame limited muted, env⟩) rfl ht htakes
          exact .inr (.inl ⟨job, hhub ▸ hjob, hclient⟩)
        · refine .inl ⟨frame, ?_, ht⟩
          rw [hwires, Function.update_self]
          exact hframe
      · refine .inl ⟨frame, ?_, ht⟩
        rw [hwires, Function.update_of_ne hcd]
        exact hframe
    · exact .inr (.inl (hevent hhub Hub.Input.noConfusion rfl hjob))
    · exact .inr (.inr ⟨m, hgrows hhub m hm, ht⟩)

/-! ### What every run keeps -/

/-- A loading window has a request somewhere. -/
structure Inv (s : HistoryNet) : Prop where
  sound : Registry.Sound s.system.hub.registry
  read : ∀ i w c, s.system.windows[i]? = some w → w.worker.session = some c →
    s.received i ≤ (s.system.hub.sentTo c).length
  loading : ∀ i w, s.system.windows[i]? = some w → w.controller.historyLoading = true →
    s.outstanding i w = true

theorem inFlight_iff : s.inFlight i w = true ↔
    ∃ c, w.worker.session = some c ∧ w.worker.running = true ∧ s.awaits i c = true := by
  unfold inFlight
  rw [Option.any_eq_true]
  simp only [Bool.and_eq_true]

theorem outstanding_iff : s.outstanding i w = true ↔ w.calls.any Call.isHistory = true ∨
    s.inFlight i w = true ∨ w.signals.any Signal.isHistory = true := by
  unfold outstanding
  simp only [Bool.or_eq_true, or_assoc]

theorem received_stepSystem {x : Gui.Input} {w' : Window} (hw : s.system.windows[i]? = some w)
    (hw' : (s.system.step platform x).windows[i]? = some w') :
    (s.stepSystem platform x).received i = nextReceived (s.received i) w w' := by
  simp only [stepSystem, hw, hw']

/-- A window that keeps its connection keeps what is in flight. -/
theorem Inv.inFlight_step (hi : Inv s) {x : Gui.Input} {w' : Window}
    (hw : s.system.windows[i]? = some w)
    (hw' : (s.system.step platform x).windows[i]? = some w')
    (hsession : w'.worker.session = w.worker.session)
    (hrunning : w'.worker.running = w.worker.running)
    (hload : w.controller.historyLoading = true) (hkeep : s.losesRequest (.system x) = false)
    (hf : s.inFlight i w = true) : (s.stepSystem platform x).inFlight i w' = true := by
  obtain ⟨c, hc, hrun, ha⟩ := inFlight_iff.1 hf
  refine inFlight_iff.2 ⟨c, hsession.trans hc, hrunning.trans hrun, ?_⟩
  refine awaits_step hi.sound rfl ?_ (hi.read i w c hw hc) hkeep
    (waits_of_window hw hload hrun hc) ha
  rw [received_stepSystem hw hw']
  exact if_pos hsession

/-- A window that keeps its connection, its queued requests and its pages. -/
theorem Inv.outstanding_step (hi : Inv s) {x : Gui.Input} {w' : Window}
    (hw : s.system.windows[i]? = some w)
    (hw' : (s.system.step platform x).windows[i]? = some w')
    (hsession : w'.worker.session = w.worker.session)
    (hrunning : w'.worker.running = w.worker.running)
    (hload : w.controller.historyLoading = true) (hkeep : s.losesRequest (.system x) = false)
    (hcalls : w.calls.any Call.isHistory = true → w'.calls.any Call.isHistory = true)
    (hsignals : w.signals.any Signal.isHistory = true → w'.signals.any Signal.isHistory = true) :
    (s.stepSystem platform x).outstanding i w' = true := by
  rcases outstanding_iff.1 (hi.loading i w hw hload) with hold | hold | hold
  · exact outstanding_iff.2 (.inl (hcalls hold))
  · exact outstanding_iff.2
      (.inr (.inl (hi.inFlight_step hw hw' hsession hrunning hload hkeep hold)))
  · exact outstanding_iff.2 (.inr (.inr (hsignals hold)))

/-- A window with nothing in flight that keeps its queued requests and its pages. -/
theorem Inv.outstanding_closed (hi : Inv s) {t : HistoryNet} {w' : Window}
    (hw : s.system.windows[i]? = some w) (hload : w.controller.historyLoading = true)
    (hidle : s.inFlight i w = false)
    (hcalls : w.calls.any Call.isHistory = true → w'.calls.any Call.isHistory = true)
    (hsignals : w.signals.any Signal.isHistory = true → w'.signals.any Signal.isHistory = true) :
    t.outstanding i w' = true := by
  rcases outstanding_iff.1 (hi.loading i w hw hload) with hold | hold | hold
  · exact outstanding_iff.2 (.inl (hcalls hold))
  · rw [hidle] at hold
    cases hold
  · exact outstanding_iff.2 (.inr (.inr (hsignals hold)))

theorem isHistory_of_control {call : Call} (hcall : call.isControl = true) :
    call.isHistory = false := by
  cases call <;> first | rfl | cases hcall

/-- `requestHistory` sends a history request. -/
theorem frame_of_isHistory {call : Call} (hcall : call.isHistory = true) :
    ∃ frame, call.frame = some frame ∧ frame.type = .historyRequest := by
  cases call with
  | requestHistory room targetUserCode isPrivate beforeMessageID limit searchQuery =>
    exact ⟨_, rfl, rfl⟩
  | _ => cases hcall

/-- After every step of the system a loading window has a request somewhere. -/
theorem Inv.loading_step (hi : Inv s) {x : Gui.Input} {w' : Window}
    (hw : s.system.windows[i]? = some w)
    (hw' : (s.system.step platform x).windows[i]? = some w')
    (hstep : System.WindowStep platform s.system i w x w')
    (hkeep : s.losesRequest (.system x) = false)
    (hhistory : ∀ room target isPrivate query, x ≠ .receiveHistory i room target isPrivate query)
    (hload : w'.controller.historyLoading = true) :
    (s.stepSystem platform x).outstanding i w' = true := by
  have hqueued : ∀ {t : HistoryNet} {v : Window}, v.calls.any Call.isHistory = true →
      t.outstanding i v = true := fun h => outstanding_iff.2 (.inl h)
  have htail : ∀ {call : Call} {rest : List Call}, w.calls = call :: rest →
      call.isHistory = false → w.calls.any Call.isHistory = true →
        rest.any Call.isHistory = true := by
    intro call rest hcalls hcall hany
    rwa [hcalls, List.any_cons, hcall, Bool.false_or] at hany
  -- a call that opens or closes the connection
  have hcontrol : ∀ {call : Call} {rest : List Call} {attempt : Attempt} {fails : Bool},
      x = .runCall i attempt fails → w.calls = call :: rest → call.isControl = true →
      w.controller.historyLoading = true → s.inFlight i w = false := by
    rintro call rest attempt fails rfl hcalls hcall hold
    simpa [losesRequest, hw, hold, hcalls, hcall, isHistory_of_control hcall] using hkeep
  -- a request that the worker runs is sent
  have hsent : ∀ {call : Call} {rest : List Call} {attempt : Attempt} {fails : Bool},
      x = .runCall i attempt fails → w.calls = call :: rest → call.isHistory = true →
      w.controller.historyLoading = true →
        w.worker.session ≠ none ∧ w.worker.running = true ∧ fails = false := by
    rintro call rest attempt fails rfl hcalls hcall hold
    have hfacts : (w.worker.session.isNone = false ∧ w.worker.running = true) ∧ fails = false := by
      simp only [losesRequest, hw, Option.any_some, hold, hcalls, hcall, Bool.true_and,
        Bool.or_eq_false_iff, Bool.not_eq_false'] at hkeep
      exact hkeep.1
    refine ⟨?_, hfacts.1.2, hfacts.2⟩
    intro hnone
    rw [hnone] at hfacts
    cases hfacts.1.1
  cases hstep with
  | idle hfree => exact hi.outstanding_step hw hw' rfl rfl hload hkeep id id
  | empty hcalls => exact hi.outstanding_step hw hw' rfl rfl hload hkeep id id
  | act action =>
    rcases loading_act w.controller action hload with hold | hnew
    · refine hi.outstanding_step hw hw' rfl rfl hold hkeep (fun h => ?_) id
      rw [List.any_append, h, Bool.true_or]
    · refine hqueued ?_
      rw [List.any_append, hnew, Bool.or_true]
  | @signal sig rest hsignals =>
    rcases loading_handleSignal w.controller sig hload with ⟨hold, hsig⟩ | hnew
    · refine hi.outstanding_step hw hw' rfl rfl hold hkeep (fun h => ?_) fun h => ?_
      · rw [List.any_append, h, Bool.true_or]
      · rwa [hsignals, List.any_cons, hsig, Bool.false_or] at h
    · refine hqueued ?_
      rw [List.any_append, hnew, Bool.or_true]
  | lose =>
    have hidle : s.inFlight i w = false := by
      simpa [losesRequest, hw, show w.controller.historyLoading = true from hload] using hkeep
    refine hi.outstanding_closed hw hload hidle id fun h => ?_
    rw [List.any_append, h, Bool.true_or]
  | history room target isPrivate query => exact absurd rfl (hhistory room target isPrivate query)
  | connect hcalls hlogin =>
    refine hi.outstanding_closed hw hload (hcontrol rfl hcalls rfl hload) (htail hcalls rfl)
      fun h => ?_
    rw [List.any_append, h, Bool.true_or]
  | disconnect hcalls =>
    exact hi.outstanding_closed hw hload (hcontrol rfl hcalls rfl hload) (htail hcalls rfl) id
  | reconnect hcalls =>
    exact hi.outstanding_closed hw hload (hcontrol rfl hcalls rfl hload) (htail hcalls rfl) id
  | @drop attempt fails call rest hcalls hcall hwhy =>
    have hother : call.isHistory = false := by
      by_contra hhist
      have hhist : call.isHistory = true := by simpa using hhist
      rcases hwhy with hnone | hnone
      · exact (hsent rfl hcalls hhist hload).1 hnone
      · obtain ⟨frame, hframe, -⟩ := frame_of_isHistory hhist
        rw [hnone] at hframe
        cases hframe
    exact hi.outstanding_step hw hw' rfl rfl hload hkeep (htail hcalls hother) id
  | @send attempt call rest c frame hcalls hcall hsession hframe =>
    by_cases hhist : call.isHistory = true
    · -- the request is on the wire
      obtain ⟨frame', hframe', ht⟩ := frame_of_isHistory hhist
      obtain rfl : frame' = frame := Option.some_injective _ (hframe'.symm.trans hframe)
      refine outstanding_iff.2 (.inr (.inl (inFlight_iff.2 ⟨c, hsession,
        (hsent rfl hcalls hhist hload).2.1, awaits_iff.2 (.inl ⟨frame', ?_, ht⟩)⟩)))
      change frame' ∈ (s.system.step platform _).wires c
      rw [System.wires_send platform hw hcalls hcall hsession hframe]
      exact List.mem_append_right _ List.mem_cons_self
    · exact hi.outstanding_step hw hw' rfl rfl hload hkeep (htail hcalls (by simpa using hhist)) id
  | @failed attempt call rest c frame hcalls hcall hsession hframe =>
    have hother : call.isHistory = false := by
      by_contra hhist
      cases (hsent rfl hcalls (by simpa using hhist) hload).2.2
    refine hi.outstanding_step hw hw' rfl rfl hload hkeep (htail hcalls hother) fun h => ?_
    rw [List.any_append, h, Bool.true_or]
  | timer generation attempt hretry hcurrent hlogin =>
    have hidle : s.inFlight i w = false := by
      simpa [losesRequest, hw, show w.controller.historyLoading = true from hload, hretry,
        hcurrent] using hkeep
    refine hi.outstanding_closed hw hload hidle id fun h => ?_
    rw [List.any_append, h, Bool.true_or]
  | oldTimer generation attempt hold =>
    obtain ⟨hsession, hrunning⟩ := System.worker_oldTimer hold
    exact hi.outstanding_step hw hw' hsession hrunning hload hkeep id id

theorem sound_step (hs : Registry.Sound s.system.hub.registry) (x : Gui.Input) :
    Registry.Sound (s.system.step platform x).hub.registry := by
  cases System.serverStep platform s.system x with
  | quiet hhub hwires => rwa [hhub]
  | login username userCode env hhub hwires =>
    rw [hhub]
    exact Hub.sound_step platform _ _ hs
  | event e hx hhub hwires =>
    rw [hhub]
    exact Hub.sound_step platform _ _ hs
  | frame d env limited muted first rest hx hwire hreads hhub hwires =>
    rw [hhub]
    exact Hub.sound_step platform _ _ hs

theorem length_sentTo_step (hs : Registry.Sound s.system.hub.registry) (x : Gui.Input)
    (c : ClientID) :
    (s.system.hub.sentTo c).length ≤ ((s.system.step platform x).hub.sentTo c).length := by
  have hevent : ∀ {e : Hub.Event}, (s.system.step platform x).hub = s.system.hub.step platform e →
      (s.system.hub.sentTo c).length ≤ ((s.system.step platform x).hub.sentTo c).length := by
    intro e hhub
    obtain ⟨out, hout⟩ := Hub.sent_step platform hs e
    rw [hhub, Hub.sentTo_append hout, List.length_append]
    omega
  cases System.serverStep platform s.system x with
  | quiet hhub hwires => rw [hhub]
  | login username userCode env hhub hwires => exact hevent hhub
  | event e hx hhub hwires => exact hevent hhub
  | frame d env limited muted first rest hx hwire hreads hhub hwires => exact hevent hhub

/-- The system takes a step that loses no request. -/
theorem Inv.stepSystem (hi : Inv s) {x : Gui.Input} (hkeep : s.losesRequest (.system x) = false)
    (hhistory : ∀ i room target isPrivate query, x ≠ .receiveHistory i room target isPrivate query) :
    Inv (s.stepSystem platform x) := by
  -- the window before the step
  have hbefore : ∀ {i w'}, (s.system.step platform x).windows[i]? = some w' →
      ∃ w, s.system.windows[i]? = some w ∧ System.WindowStep platform s.system i w x w' := by
    intro i w' hw'
    cases hw : s.system.windows[i]? with
    | none =>
      have hlength := List.getElem?_eq_none_iff.1 hw
      rw [← System.length_windows platform x] at hlength
      rw [List.getElem?_eq_none hlength] at hw'
      cases hw'
    | some w =>
      obtain ⟨w'', hw'', hstep⟩ := System.windowStep platform hw x
      obtain rfl : w'' = w' := Option.some_injective _ (hw''.symm.trans hw')
      exact ⟨w, rfl, hstep⟩
  constructor
  case sound => exact sound_step hi.sound x
  case read =>
    intro i w' c hw' hc
    obtain ⟨w, hw, -⟩ := hbefore hw'
    rw [received_stepSystem hw hw']
    unfold nextReceived
    split
    · rename_i hsame
      exact (hi.read i w c hw (hsame ▸ hc)).trans (length_sentTo_step hi.sound x c)
    · exact Nat.zero_le _
  case loading =>
    intro i w' hw' hload
    obtain ⟨w, hw, hstep⟩ := hbefore hw'
    exact hi.loading_step hw hw' hstep hkeep (hhistory i) hload

/-- What is outstanding depends on the window, the server and the messages read. -/
theorem outstanding_congr {t : HistoryNet} (hhub : t.system.hub = s.system.hub)
    (hwires : t.system.wires = s.system.wires) (hreceived : t.received i = s.received i) :
    t.outstanding i w = s.outstanding i w := by
  simp only [outstanding, inFlight, awaits, unread, hhub, hwires, hreceived]

/-- A message that is no page leaves a page on its way. -/
theorem awaits_receive {t : HistoryNet} {m : Message} {rest : List Message}
    (hhub : t.system.hub = s.system.hub) (hwires : t.system.wires = s.system.wires)
    (hreceived : t.received i = s.received i + 1) (hunread : s.unread i c = m :: rest)
    (hother : m.type ≠ .historyResponse) (ha : s.awaits i c = true) : t.awaits i c = true := by
  have hrest : t.unread i c = rest := by
    unfold unread at hunread ⊢
    rw [hhub, hreceived, ← List.tail_drop, hunread, List.tail_cons]
  rw [awaits_iff] at ha ⊢
  rw [hhub, hwires, hrest]
  rw [hunread] at ha
  rcases ha with hframe | hjob | ⟨m', hm', ht⟩
  · exact .inl hframe
  · exact .inr (.inl hjob)
  · rcases List.mem_cons.1 hm' with rfl | hm'
    · exact absurd ht hother
    · exact .inr (.inr ⟨m', hm', ht⟩)

/-- The message is a page: it becomes a signal; every other message passes the window by. -/
theorem Inv.receive (hi : Inv s) (hw : s.system.windows[i]? = some w)
    (hc : w.worker.session = some c) {m : Message} {rest : List Message}
    (hunread : s.unread i c = m :: rest) :
    Inv
      { system :=
          if m.type = .historyResponse then
            s.system.step platform
              (.receiveHistory i m.room m.targetUserCode m.isPrivate m.searchQuery)
          else s.system
        received := Function.update s.received i (s.received i + 1) } := by
  have hroom : s.received i < (s.system.hub.sentTo c).length := by
    by_contra hfull
    unfold unread at hunread
    rw [List.drop_eq_nil_of_le (Nat.not_lt.1 hfull)] at hunread
    cases hunread
  have hread : ∀ j v d, s.system.windows[j]? = some v → v.worker.session = some d →
      Function.update s.received i (s.received i + 1) j ≤ (s.system.hub.sentTo d).length := by
    intro j v d hv hd
    by_cases hji : j = i
    · subst hji
      obtain rfl := Option.some_injective _ (hv.symm.trans hw)
      obtain rfl := Option.some_injective _ (hd.symm.trans hc)
      rw [Function.update_self]
      exact hroom
    · rw [Function.update_of_ne hji]
      exact hi.read j v d hv hd
  by_cases hpage : m.type = .historyResponse
  · simp only [if_pos hpage, System.step, hw]
    constructor
    case sound => exact hi.sound
    case read =>
      intro j v d hv hd
      dsimp only at hv
      rw [System.getElem?_setWindow hw] at hv
      split at hv
      · rename_i hij
        subst hij
        obtain rfl := Option.some_injective _ hv
        exact hread _ w d hw hd
      · exact hread j v d hv hd
    case loading =>
      intro j v hv hload
      dsimp only at hv
      rw [System.getElem?_setWindow hw] at hv
      split at hv
      · -- the signal is there to be handled
        obtain rfl := Option.some_injective _ hv
        refine outstanding_iff.2 (.inr (.inr ?_))
        rw [List.any_append, Bool.or_eq_true]
        exact .inr rfl
      · rename_i hij
        have hreceived : Function.update s.received i (s.received i + 1) j = s.received j :=
          Function.update_of_ne (Ne.symm hij) ..
        refine Eq.trans ?_ (hi.loading j v hv hload)
        exact outstanding_congr rfl rfl hreceived
  · rw [if_neg hpage]
    refine ⟨hi.sound, hread, fun j v hv hload => ?_⟩
    by_cases hji : j = i
    · subst hji
      obtain rfl := Option.some_injective _ (hv.symm.trans hw)
      rcases outstanding_iff.1 (hi.loading _ _ hw hload) with hold | hold | hold
      · exact outstanding_iff.2 (.inl hold)
      · obtain ⟨d, hd, hrun, ha⟩ := inFlight_iff.1 hold
        obtain rfl := Option.some_injective _ (hd.symm.trans hc)
        have hreceived : Function.update s.received j (s.received j + 1) j = s.received j + 1 :=
          Function.update_self ..
        exact outstanding_iff.2 (.inr (.inl (inFlight_iff.2 ⟨d, hd, hrun,
          awaits_receive (s := s) rfl rfl hreceived hunread hpage ha⟩)))
      · exact outstanding_iff.2 (.inr (.inr hold))
    · have hreceived : Function.update s.received i (s.received i + 1) j = s.received j :=
        Function.update_of_ne hji ..
      refine Eq.trans ?_ (hi.loading j v hv hload)
      exact outstanding_congr rfl rfl hreceived

theorem inv_step (platform : Platform) (s : HistoryNet) (x : Input)
    (hkeep : s.losesRequest x = false) (hi : Inv s) : Inv (s.step platform x) := by
  cases x with
  | system x =>
    cases x with
    | receiveHistory => exact hi
    | _ => exact hi.stepSystem hkeep fun _ _ _ _ _ => Gui.Input.noConfusion
  | receive i =>
    simp only [step]
    split
    · exact hi
    rename_i w hw
    split
    · exact hi
    rename_i c hc
    split
    · exact hi
    split
    · exact hi
    rename_i m rest hunread
    exact hi.receive hw hc hunread

theorem inv_start (adminCode : String) (offlineStore : Bool) (windows : ℕ) :
    Inv (start adminCode offlineStore windows) where
  sound := Hub.sound_start adminCode offlineStore
  read _ _ _ _ _ := Nat.zero_le _
  loading i w hw hload := by
    obtain rfl : w = {} := List.eq_of_mem_replicate (List.mem_of_getElem? hw)
    cases hload

/-- In every run in which no step loses the request of a loading window, a window without a request
is not loading. -/
theorem loading_settles (platform : Platform) (adminCode : String) (offlineStore : Bool)
    (windows : ℕ) (xs : List Input)
    (hkeep : Along (step platform) (fun s x => s.losesRequest x = false)
      (start adminCode offlineStore windows) xs) :
    Settled (run (step platform) (start adminCode offlineStore windows) xs) := by
  have hi := run_invariant_along (step platform) (inv_step platform)
    (inv_start adminCode offlineStore windows) hkeep
  intro i w hw hnone
  by_contra hload
  rw [hi.loading i w hw (by simpa using hload)] at hnone
  cases hnone

/-! ### Alice's first page -/

/-- Alice connects, and her worker sends the requests of a new session. -/
def asksHistory : List Input :=
  [.act 0 (.connectToServer "Alice" "alice"), .runCall 0 (.answered {}) false, .handleSignal 0,
    .runCall 0 .unreachable false, .runCall 0 .unreachable false,
    .runCall 0 .unreachable false].map .system

/-- The server reads them, its worker loads the page, and Alice's window receives it. -/
def readsPage : List Input :=
  [.server ⟨.replay 0, {}⟩, .server ⟨.replay 0, {}⟩, .readFrame 0 {} false false,
    .readFrame 0 {} false false, .readFrame 0 {} false false, .server ⟨.takeHistoryJob, {}⟩,
    .server ⟨.runHistoryJob, {}⟩, .server ⟨.historyResult, {}⟩].map .system ++
  List.replicate 4 (.receive 0) ++ [.system (.handleSignal 0)]

/-- With the page in her window, Alice waits for nothing. -/
theorem loading_settles_alice :
    ∃ w, (run (step Hub.samplePlatform) (start "" true 1)
        (asksHistory ++ readsPage)).system.windows[0]? = some w ∧
      w.controller.historyLoading = false := by
  have hwindow : ((run (step Hub.samplePlatform) (start "" true 1)
      (asksHistory ++ readsPage)).system.windows[0]?).any (fun w =>
        !(run (step Hub.samplePlatform) (start "" true 1)
          (asksHistory ++ readsPage)).outstanding 0 w) = true := by
    decide +kernel
  obtain ⟨w, hw, hidle⟩ := (Option.any_eq_true _ _).1 hwindow
  rw [Bool.not_eq_true'] at hidle
  exact ⟨w, hw, loading_settles Hub.samplePlatform "" true 1 (asksHistory ++ readsPage)
    (by decide +kernel) 0 w hw hidle⟩

/-- The connection is lost while the request is on its way, and the worker opens another one. -/
def reconnects : List Input :=
  [.loseConnection 0, .handleSignal 0, .runCall 0 .unreachable false,
    .server ⟨.unregister 0, {}⟩, .fireTimer 0 1 (.answered {}), .handleSignal 0,
    .runCall 0 .unreachable false, .runCall 0 .unreachable false].map .system

/-- On the new connection the window still waits for the page of the old one, and asks for none. -/
theorem loading_after_reconnect :
    ¬ ∀ (platform : Platform) (adminCode : String) (offlineStore : Bool) (windows : ℕ)
      (xs : List Input),
      Settled (run (step platform) (start adminCode offlineStore windows) xs) := by
  intro hsettled
  have hwindow : ((run (step Hub.samplePlatform) (start "" true 1)
      (asksHistory ++ reconnects)).system.windows[0]?).any (fun w =>
        w.controller.connected && w.controller.historyLoading &&
          !(run (step Hub.samplePlatform) (start "" true 1)
            (asksHistory ++ reconnects)).outstanding 0 w) = true := by
    decide +kernel
  obtain ⟨w, hw, hfacts⟩ := (Option.any_eq_true _ _).1 hwindow
  simp only [Bool.and_eq_true, Bool.not_eq_true'] at hfacts
  have hidle := hsettled Hub.samplePlatform "" true 1 (asksHistory ++ reconnects) 0 w hw hfacts.2
  rw [hfacts.1.2] at hidle
  cases hidle

end HistoryNet

end Gui

end LanChat
