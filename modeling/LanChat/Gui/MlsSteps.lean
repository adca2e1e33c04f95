import LanChat.Gui.MlsNet
import LanChat.Hub.MlsLog

/-!
# What a step of the system does

* `workerInput`: the input that a step gives to a worker;
* `NetStep`, `netStep`: a step is one of a worker, one of the server, or a loss;
* `hub_invariant`: what the server's events keep, the system keeps.
-/

namespace LanChat

namespace Gui

open GoStrings EventMachine MlsStore Hub

namespace MlsNet

variable {net net' : MlsNet} (platform : Platform)

/-- The frames that a worker's step puts on its connection. -/
def sent (w' : MlsWorker) (frames : List Message) : List (ClientID × Message) :=
  match w'.session with
  | some c => frames.map (c, ·)
  | none => []

theorem mem_of_mem_sent {w' : MlsWorker} {frames : List Message} {f : ClientID × Message}
    (hf : f ∈ sent w' frames) : f.2 ∈ frames := by
  unfold sent at hf
  split at hf
  · obtain ⟨m, hm, rfl⟩ := List.mem_map.1 hf
    exact hm
  · cases hf

theorem mem_sent {w' : MlsWorker} {frames : List Message} {c : ClientID} {m : Message}
    (hc : w'.session = some c) (hm : m ∈ frames) : (c, m) ∈ sent w' frames := by
  unfold sent
  rw [hc]
  exact List.mem_map.2 ⟨m, hm, rfl⟩

/-- The system after worker `i` has become `w'` and sent `frames`. -/
def afterWorker (net : MlsNet) (i : ℕ) (w' : MlsWorker) (frames : List Message) : MlsNet :=
  { net with workers := net.workers.set i w', toServer := net.toServer ++ sent w' frames }

theorem stepWorker_eq {i : ℕ} {w : MlsWorker} (hw : net.workers[i]? = some w)
    (x : MlsInput × MlsDraw) :
    net.stepWorker platform i x =
      net.afterWorker i (w.step platform x).1 (w.step platform x).2 := by
  unfold stepWorker
  rw [hw]
  rfl

section Worker

variable {i : ℕ} {w w' : MlsWorker} {frames : List Message} (hw : net.workers[i]? = some w)

theorem mem_workers_afterWorker {v : MlsWorker}
    (hv : v ∈ (net.afterWorker i w' frames).workers) : v = w' ∨ v ∈ net.workers :=
  (List.mem_or_eq_of_mem_set hv).symm

theorem mem_frames_afterWorker {f : ClientID × Message}
    (hf : f ∈ (net.afterWorker i w' frames).toServer) : f ∈ net.toServer ∨ f.2 ∈ frames :=
  (List.mem_append.1 hf).imp_right mem_of_mem_sent

include hw

theorem worker_mem_afterWorker : w' ∈ (net.afterWorker i w' frames).workers := by
  obtain ⟨hi, -⟩ := List.getElem?_eq_some_iff.1 hw
  exact List.mem_set hi w'

theorem mem_afterWorker_of_mem {v : MlsWorker} (hv : v ∈ net.workers) :
    v = w ∨ v ∈ (net.afterWorker i w' frames).workers := by
  obtain ⟨j, hj, rfl⟩ := List.getElem_of_mem hv
  obtain ⟨hi, rfl⟩ := List.getElem?_eq_some_iff.1 hw
  by_cases hij : j = i
  · subst hij
    exact .inl rfl
  · refine .inr (List.mem_iff_getElem.2 ⟨j, by simpa [afterWorker] using hj, ?_⟩)
    exact List.getElem_set_ne (fun h => hij h.symm) _

end Worker

theorem nextFrame_eq_some {l : List (ClientID × Message)} {c : ClientID} {m : Message}
    (h : nextFrame l c = some m) : (c, m) ∈ l := by
  unfold nextFrame at h
  obtain ⟨⟨c', m'⟩, hf, rfl⟩ := Option.map_eq_some_iff.1 h
  have hc : c' = c := by simpa using List.find?_some hf
  rw [← hc]
  exact List.mem_of_find?_eq_some hf

/-- Taking a frame takes the next one only. -/
theorem mem_dropNext {l : List (ClientID × Message)} {c : ClientID} {m : Message}
    (h : nextFrame l c = some m) {f : ClientID × Message} (hf : f ∈ l) :
    f = (c, m) ∨ f ∈ dropNext l c := by
  induction l with
  | nil => cases hf
  | cons a l ih =>
    unfold nextFrame at h
    unfold dropNext
    by_cases ha : a.1 = c
    · rw [List.find?_cons_of_pos (by simpa using ha)] at h
      rw [List.eraseP_cons_of_pos (by simpa using ha)]
      rcases List.mem_cons.1 hf with rfl | hf
      · cases h
        exact .inl (by rw [← ha])
      · exact .inr hf
    · rw [List.find?_cons_of_neg (by simpa using ha)] at h
      rw [List.eraseP_cons_of_neg (by simpa using ha)]
      rcases List.mem_cons.1 hf with rfl | hf
      · exact .inr List.mem_cons_self
      · exact (ih h hf).imp_right (List.mem_cons_of_mem _)

/-! ### The server -/

/-- Only MLS frames write the five tables. -/
theorem keepsMls_of_not_frame {h : Hub} (hs : h.registry.Sound) {e : Hub.Event}
    (he : ∀ c m limited muted, e.input = .frame c m limited muted → isMlsFrame m = false) :
    KeepsMls h.db.mls (h.step platform e).db.mls := by
  rcases step_mls platform hs e with hkeeps | ⟨c, obj, m, op, ⟨⟨limited, muted, hinput⟩, -⟩, hop, -⟩
  · exact hkeeps
  · have hm := he c m limited muted hinput
    unfold isMlsFrame at hm
    cases hop with
    | commitForMember _ ht _ | commit _ ht _ | proposeForMember _ _ ht | propose _ ht
    | welcomeForMember _ _ ht | welcome _ _ ht | accept _ _ ht =>
      rw [ht] at hm
      cases hm

/-! ### The steps -/

/-- The worker and the input that a step gives to it. -/
def workerInput (net : MlsNet) : Input → Option (MlsWorker × MlsInput × MlsDraw)
  | .call i input d =>
    if input.isSlot then (net.workers[i]?).map fun w => (w, input, d) else none
  | .connectToServer i username userCode attempt d => (net.workers[i]?).map fun w =>
      (w, .connectToServer username userCode
        (System.loginSession platform net.hub username userCode attempt), d)
  | .retrySavedConnection i attempt d => (net.workers[i]?).bind fun w =>
      if w.saved then some (w, .retrySavedConnection
        (System.loginSession platform net.hub w.username w.userCode attempt), d)
      else none
  | .receive i d => (net.workers[i]?).bind fun w => w.session.bind fun c =>
      (nextFrame net.toClient c).map fun m => (w, .receive m, d)
  | _ => none

/-- The ways in which a step changes the system.  `base` is the system in which a worker's step
runs, after a login that belongs to it. -/
inductive NetStep (net : MlsNet) (input : Input) (net' : MlsNet) : Prop
  | quiet (hworkers : net'.workers = net.workers) (hserver : net'.toServer = net.toServer)
      (hclient : net'.toClient = net.toClient)
      (hhub : net'.hub = net.hub ∨ ∃ e, (∀ c m limited muted, e.input = .frame c m limited muted →
        isMlsFrame m = false) ∧ net'.hub = net.hub.step platform e)
  | worker (i : ℕ) (w : MlsWorker) (x : MlsInput × MlsDraw) (base : MlsNet)
      (hw : net.workers[i]? = some w) (hinput : net.workerInput platform input = some (w, x))
      (hworkers : base.workers = net.workers) (hserver : base.toServer = net.toServer)
      (hclient : ∀ f ∈ base.toClient, f ∈ net.toClient)
      (hhub : base.hub = net.hub ∨
        ∃ username userCode env, base.hub = net.hub.step platform ⟨.login username userCode, env⟩)
      (hlogin : ∀ c, x.1.login = some c →
        c = net.hub.registry.objects.length ∧ c < base.hub.registry.objects.length)
      (h : net' = base.afterWorker i (w.step platform x).1 (w.step platform x).2)
  | read (c : ClientID) (m : Message) (env : Env) (limited muted : Bool)
      (hinput : input = .readFrame c env limited muted) (hnext : nextFrame net.toServer c = some m)
      (hreads : net.hub.readsFrames c = true)
      (h : net' = { net with
        hub := net.hub.step platform ⟨.frame c m limited muted, env⟩
        toServer := dropNext net.toServer c })
  | pump (c : ClientID) (obj : Client) (m : Message) (hobj : net.hub.registry.client? c = some obj)
      (hm : obj.send.head? = some m)
      (h : net' = { net with
        hub := net.hub.step platform ⟨.writePump c, {}⟩
        toClient := net.toClient ++ [(c, m)] })
  | lose (c : ClientID) (hinput : input = .loseFrames c)
      (h : net' = { net with
        toServer := net.toServer.filter fun f => f.1 ≠ c
        toClient := net.toClient.filter fun f => f.1 ≠ c })

theorem hub_afterLogin (net : MlsNet) (username userCode : String) (attempt : Attempt) :
    (net.afterLogin platform username userCode attempt).hub = net.hub ∨
      ∃ env, (net.afterLogin platform username userCode attempt).hub =
        net.hub.step platform ⟨.login username userCode, env⟩ := by
  cases attempt with
  | unreachable => exact .inl rfl
  | unanswered env | answered env => exact .inr ⟨env, rfl⟩

/-- A login that succeeds makes a client object. -/
theorem login_eq_some {username userCode : String} {attempt : Attempt} {c : ClientID}
    (hc : System.loginSession platform net.hub username userCode attempt = some c) :
    c = net.hub.registry.objects.length ∧
      c < (net.afterLogin platform username userCode attempt).hub.registry.objects.length := by
  unfold System.loginSession at hc
  split at hc
  · cases hc
  · cases hc
  split at hc
  · rename_i hlt
    cases hc
    exact ⟨rfl, hlt⟩
  · cases hc

theorem stepWorker_of_none {i : ℕ} (hw : net.workers[i]? = none) (x : MlsInput × MlsDraw) :
    net.stepWorker platform i x = net := by
  unfold stepWorker
  rw [hw]

theorem NetStep.refl (input : Input) : NetStep platform net input net :=
  .quiet rfl rfl rfl (.inl rfl)

theorem netStep_login {input : Input} {i : ℕ} {w : MlsWorker} {x : MlsInput × MlsDraw}
    {username userCode : String} {attempt : Attempt} (hw : net.workers[i]? = some w)
    (hinput : net.workerInput platform input = some (w, x))
    (hlogin : x.1.login = System.loginSession platform net.hub username userCode attempt) :
    NetStep platform net input
      ((net.afterLogin platform username userCode attempt).stepWorker platform i x) := by
  have hw' : (net.afterLogin platform username userCode attempt).workers[i]? = some w := hw
  refine .worker i w x (net.afterLogin platform username userCode attempt) hw hinput rfl rfl
    (fun _ hf => hf) ?_ (fun c hc => login_eq_some platform (hlogin ▸ hc))
    (stepWorker_eq platform hw' x)
  rcases hub_afterLogin platform net username userCode attempt with heq | ⟨env, heq⟩
  · exact .inl heq
  · exact .inr ⟨username, userCode, env, heq⟩

/-- Every step is one of `NetStep`. -/
theorem netStep (net : MlsNet) (input : Input) :
    NetStep platform net input (net.step platform input) := by
  cases input with
  | call i slot d =>
    unfold MlsNet.step
    dsimp only
    split
    · rename_i hslot
      cases hw : net.workers[i]? with
      | none =>
        rw [stepWorker_of_none platform hw]
        exact .refl platform _
      | some w =>
        refine .worker i w (slot, d) net hw ?_ rfl rfl (fun _ hf => hf) (.inl rfl) (fun c hc => ?_)
          (stepWorker_eq platform hw _)
        · simp [workerInput, hslot, hw]
        · cases slot with
          | connectToServer _ _ _ => cases hslot
          | retrySavedConnection _ => cases hslot
          | _ => cases hc
    · exact .refl platform _
  | connectToServer i username userCode attempt d =>
    unfold MlsNet.step
    dsimp only
    cases hw : net.workers[i]? with
    | none =>
      have hw' : (net.afterLogin platform username userCode attempt).workers[i]? = none := hw
      rw [stepWorker_of_none platform hw']
      refine .quiet rfl rfl rfl ((hub_afterLogin platform net username userCode attempt).imp_right ?_)
      rintro ⟨env, heq⟩
      exact ⟨⟨.login username userCode, env⟩, fun _ _ _ _ h => (by cases h), heq⟩
    | some w => exact netStep_login platform hw (by simp [workerInput, hw]) rfl
  | retrySavedConnection i attempt d =>
    unfold MlsNet.step
    dsimp only
    split
    · exact .refl platform _
    rename_i w hw
    split
    · rename_i hsaved
      exact netStep_login platform hw (by simp [workerInput, hw, hsaved]) rfl
    · exact .refl platform _
  | receive i d =>
    unfold MlsNet.step
    dsimp only
    split
    · exact .refl platform _
    rename_i c hsession
    split
    · exact .refl platform _
    rename_i m hm
    obtain ⟨w, hw, hwc⟩ := Option.bind_eq_some_iff.1 hsession
    have hw' : ({ net with toClient := dropNext net.toClient c } : MlsNet).workers[i]? = some w := hw
    refine .worker i w (.receive m, d) { net with toClient := dropNext net.toClient c } hw ?_ rfl rfl
      (fun f hf => List.mem_of_mem_eraseP hf) (.inl rfl) (fun c hc => by cases hc)
      (stepWorker_eq platform hw' _)
    simp [workerInput, hw, hwc, hm]
  | readFrame c env limited muted =>
    unfold MlsNet.step
    dsimp only
    split
    · exact .refl platform _
    rename_i m hm
    split
    · rename_i hreads
      exact .read c m env limited muted rfl hm hreads rfl
    · exact .refl platform _
  | writePump c =>
    unfold MlsNet.step
    dsimp only
    split
    · exact .refl platform _
    rename_i m hm
    obtain ⟨obj, hobj, hhead⟩ := Option.bind_eq_some_iff.1 hm
    split
    · exact .pump c obj m hobj hhead rfl
    · exact .refl platform _
  | loseFrames c => exact .lose c rfl rfl
  | server e =>
    unfold MlsNet.step
    dsimp only
    split
    · exact .refl platform _
    · rename_i hown
      refine .quiet rfl rfl rfl (.inr ⟨e, fun c m limited muted h => ?_, rfl⟩)
      unfold isOwn at hown
      rw [h] at hown
      simp only [Bool.or_eq_true, not_or, Bool.not_eq_true] at hown
      exact hown.2

/-- A message that a worker takes leaves the server as it is. -/
theorem hub_of_receive {input : Input} {w : MlsWorker} {x : MlsInput × MlsDraw} {m : Message}
    (hinput : net.workerInput platform input = some (w, x)) (hx : x.1 = .receive m) :
    (net.step platform input).hub = net.hub := by
  have hhub : ∀ (net : MlsNet) (i : ℕ) x, (net.stepWorker platform i x).hub = net.hub := by
    intro net i x
    unfold stepWorker
    split
    · rfl
    · rfl
  cases input with
  | call i slot d =>
    unfold MlsNet.step
    dsimp only
    split
    · exact hhub net i _
    · rfl
  | receive i d =>
    unfold MlsNet.step
    dsimp only
    split
    · rfl
    split
    · rfl
    · exact hhub _ i _
  | connectToServer i username userCode attempt d =>
    obtain ⟨w', -, heq⟩ := Option.map_eq_some_iff.1 hinput
    cases heq
    cases hx
  | retrySavedConnection i attempt d =>
    obtain ⟨w', -, hsaved⟩ := Option.bind_eq_some_iff.1 hinput
    split at hsaved
    · cases hsaved
      cases hx
    · cases hsaved
  | _ => cases hinput

/-- A step of the system is at most one event of the server. -/
theorem hub_step (net : MlsNet) (input : Input) : (net.step platform input).hub = net.hub ∨
    ∃ e, (net.step platform input).hub = net.hub.step platform e := by
  cases netStep platform net input with
  | quiet _ _ _ hhub => exact hhub.imp_right fun ⟨e, _, heq⟩ => ⟨e, heq⟩
  | worker i w x base _ _ _ _ _ hhub _ h =>
    rw [h]
    exact hhub.imp_right fun ⟨u, c, env, heq⟩ => ⟨⟨.login u c, env⟩, heq⟩
  | read c m env limited muted _ _ _ h =>
    rw [h]
    exact .inr ⟨⟨.frame c m limited muted, env⟩, rfl⟩
  | pump c obj m _ _ h =>
    rw [h]
    exact .inr ⟨⟨.writePump c, {}⟩, rfl⟩
  | lose c _ h =>
    rw [h]
    exact .inl rfl

/-- What holds of the server and is kept by its events is kept by the system. -/
theorem hub_invariant {I : Hub → Prop} (hI : ∀ h e, I h → I (h.step platform e)) {net : MlsNet}
    (hs : I net.hub) (es : List Input) : I (run (step platform) net es).hub := by
  refine run_invariant (I := fun net => I net.hub) (step platform) (fun net input h => ?_) hs es
  rcases hub_step platform net input with heq | ⟨e, heq⟩
  · rwa [heq]
  · rw [heq]
    exact hI _ e h

/-- Nothing durable is lost between two states of a run. -/
theorem extends_run {net : MlsNet} (hs : net.hub.registry.Sound) (fs : List Input) :
    Extends net.hub.db.mls (run (step platform) net fs).hub.db.mls := by
  refine (hub_invariant platform (I := fun h => h.registry.Sound ∧ Extends net.hub.db.mls h.db.mls)
    ?_ ⟨hs, Extends.refl _⟩ fs).2
  rintro h e ⟨hsound, hext⟩
  exact ⟨Hub.sound_step platform h e hsound, hext.trans (extends_of_sound platform hsound e)⟩

end MlsNet

end Gui

end LanChat
