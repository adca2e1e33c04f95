import LanChat.Hub.MlsRows

/-!
# What waits in the queues

* `Registry.Holds P r`: every message in a send queue, and every message that a login goroutine has
  still to replay, satisfies `P`; moves that send only such messages keep it;
* `Backed s m`: a welcome with a payload is a row of the store;
* `backed_step`: every welcome that waits for a client is backed, in every state.
-/

namespace LanChat

namespace Registry

variable {r r' : Registry} {P Q : ClientID → Message → Prop} {walks : Prop}
  {types : List MessageType}

/-- Every message that waits for a client satisfies `P`. -/
def Holds (P : ClientID → Message → Prop) (r : Registry) : Prop :=
  ∀ c obj, r.client? c = some obj → ∀ m ∈ obj.send ++ obj.replay, P c m

theorem Holds.mono (hPQ : ∀ c m, P c m → Q c m) (h : Holds P r) : Holds Q r :=
  fun c obj hc m hm => hPQ c m (h c obj hc m hm)

theorem Holds.of_objects (h : Holds P r) (hobj : ∀ c, r'.client? c = r.client? c) : Holds P r' := by
  intro c obj hc
  rw [hobj] at hc
  exact h c obj hc

/-- A write to a client object that adds no message. -/
theorem Holds.modifyClient {c : ClientID} {f : Client → Client} (h : Holds P r)
    (hf : ∀ o, r.client? c = some o → ∀ m ∈ (f o).send ++ (f o).replay,
      m ∈ o.send ++ o.replay ∨ P c m) : Holds P (r.modifyClient c f) := by
  intro d obj hd m hm
  rw [client?_modifyClient] at hd
  split_ifs at hd with heq
  · subst heq
    obtain ⟨o, ho, rfl⟩ := Option.map_eq_some_iff.1 hd
    rcases hf o ho m hm with hold | hnew
    · exact h c o ho m hold
    · exact hnew
  · exact h d obj hd m hm

theorem Holds.enqueue {c : ClientID} {m : Message} (h : Holds P r) (hm : P c m) :
    Holds P (r.enqueue c m) := by
  refine Holds.modifyClient (f := fun o => { o with send := o.send ++ [m] }) h fun o _ x hx => ?_
  rcases List.mem_append.1 hx with hx | hx
  · rcases List.mem_append.1 hx with hx | hx
    · exact .inl (List.mem_append_left _ hx)
    · rw [List.mem_singleton.1 hx]
      exact .inr hm
  · exact .inl (List.mem_append_right _ hx)

theorem Holds.removeClient {c : ClientID} (h : Holds P r) : Holds P (r.removeClient c) := by
  cases hc : r.client? c with
  | none =>
    unfold Registry.removeClient
    rw [hc]
    exact h
  | some obj => exact h.of_objects fun d => client?_removeClient hc d

theorem Holds.deliver {c : ClientID} {m : Message} (h : Holds P r) (hm : P c m) :
    Holds P (r.deliver c m).1 := by
  unfold Registry.deliver
  split_ifs
  · exact h.enqueue hm
  · exact h.removeClient.modifyClient fun o _ x hx => .inl hx
  · exact h

/-- A loop whose body keeps `P` keeps it. -/
theorem Holds.foldl {α : Type} {f : Registry → α → Registry}
    (hf : ∀ r a, Holds P r → Holds P (f r a)) (l : List α) (h : Holds P r) :
    Holds P (l.foldl f r) := by
  induction l generalizing r with
  | nil => exact h
  | cons a l ih => exact ih (hf r a h)

/-- Moves that send only messages of `P` keep `P`. -/
theorem Move.holds (hP : ∀ c m, m.type ∈ types → P c m) (hmove : Move walks types r r')
    (h : Holds P r) : Holds P r' := by
  cases hmove with
  | deliver c m hm => exact h.deliver (hP c m hm)
  | remove c => exact h.removeClient
  | close c => exact h.modifyClient fun o _ x hx => .inl hx
  | go c room _ hc hroom =>
    intro d obj hd m hm
    rw [client?_moveTo] at hd
    split_ifs at hd with heq
    · obtain ⟨o, ho, rfl⟩ := Option.map_eq_some_iff.1 hd
      exact h d o ho m hm
    · exact h d obj hd m hm
  | mute c => exact h.modifyClient fun o _ x hx => .inl hx
  | pump c =>
    refine h.modifyClient fun o _ x hx => .inl ?_
    rcases List.mem_append.1 hx with hx | hx
    · exact List.mem_append_left _ (List.mem_of_mem_tail hx)
    · exact List.mem_append_right _ hx
  | enroll obj _ _ hnew _ =>
    intro d o hd m hm
    rw [client?_enroll] at hd
    split_ifs at hd with heq
    · cases hd
      rw [hnew.1, hnew.2] at hm
      cases hm
    · exact h d o hd m hm
  | dropRoom room hempty => exact h
  | load c stage replay _ htypes =>
    refine h.modifyClient fun o _ x hx => ?_
    rcases List.mem_append.1 hx with hx | hx
    · exact .inl (List.mem_append_left _ hx)
    · exact .inr (hP c x (htypes x hx))
  | push c obj message rest hc hobj hm =>
    refine Holds.enqueue ?_ (hP c message hm)
    refine h.modifyClient fun o ho x hx => .inl ?_
    cases hc.symm.trans ho
    rw [hobj]
    rcases List.mem_append.1 hx with hx | hx
    · exact List.mem_append_left _ hx
    · exact List.mem_append_right _ (List.mem_cons_of_mem _ hx)

theorem Moves.holds (hP : ∀ c m, m.type ∈ types → P c m) (hmoves : Moves walks types r r')
    (h : Holds P r) : Holds P r' :=
  hmoves.preserves (fun _ _ hmove => hmove.holds hP) h

end Registry

namespace MlsStore

variable {s s' : MlsStore}

/-- Stored welcomes keep their payload. -/
theorem MlsEffect.payload {op : MlsOp} (h : MlsEffect s s' op) {g u : String} {e : ℤ}
    {w : MlsWelcome} (hw : s.welcome? g e u = some w) :
    ∃ w', s'.welcome? g e u = some w' ∧ w'.welcome = w.welcome := by
  have hstores : ∀ {room : String} {x : MlsWelcome}, StoresWelcome s s' room x →
      ∃ w', s'.welcome? g e u = some w' ∧ w'.welcome = w.welcome := by
    intro room x hx
    refine ⟨w, ?_, rfl⟩
    rw [hx.welcome]
    split_ifs with hkey
    · obtain ⟨rfl, rfl, rfl⟩ := hkey
      rw [hx.fresh] at hw
      cases hw
    · exact hw
  cases h with
  | unchanged h => exact ⟨w, h ▸ hw, rfl⟩
  | proposed h _ _ => exact ⟨w, by rwa [welcome?_congr h.welcomes], rfl⟩
  | proposedForMember _ _ h => exact ⟨w, by rwa [welcome?_congr h.stores.welcomes], rfl⟩
  | committed h _ => exact ⟨w, by rwa [welcome?_congr h.welcomes], rfl⟩
  | committedForMember _ h => exact ⟨w, by rwa [welcome?_congr h.logs.welcomes], rfl⟩
  | welcomed h _ => exact hstores h
  | welcomedForMember h => exact hstores h.stores
  | accepted h _ =>
    rw [h.welcome]
    split_ifs with hkey
    · obtain ⟨rfl, rfl, rfl⟩ := hkey
      cases h.stored.symm.trans hw
      exact ⟨_, rfl, rfl⟩
    · exact ⟨w, hw, rfl⟩

theorem StoresWelcome.row {room : String} {x : MlsWelcome}
    (hx : StoresWelcome s s' room x) {g u : String} {n : ℤ} {w : MlsWelcome}
    (hw : s'.welcome? g n u = some w) :
    s.welcome? g n u = some w ∨ (g = x.groupID ∧ w = x) := by
  rw [hx.welcome] at hw
  split_ifs at hw with hkey
  · cases hw
    exact .inr ⟨hkey.1, rfl⟩
  · exact .inl hw

/-- The other operations store no welcome. -/
theorem MlsEffect.welcome_row {op : MlsOp} (h : MlsEffect s s' op)
    (hlegacy : ∀ g room e t w, op ≠ .saveMLSWelcome g room e t w)
    (hstrict : ∀ g room sender e t i w, op ≠ .saveMLSWelcomeForMember g room sender e t i w)
    {g u : String} {e : ℤ} {w : MlsWelcome} (hw : s'.welcome? g e u = some w) :
    ∃ w', s.welcome? g e u = some w' ∧ w'.welcome = w.welcome := by
  cases h with
  | unchanged h => exact ⟨w, h ▸ hw, rfl⟩
  | proposed h _ _ => exact ⟨w, by rwa [welcome?_congr h.welcomes] at hw, rfl⟩
  | proposedForMember _ _ h => exact ⟨w, by rwa [welcome?_congr h.stores.welcomes] at hw, rfl⟩
  | committed h _ => exact ⟨w, by rwa [welcome?_congr h.welcomes] at hw, rfl⟩
  | committedForMember _ h => exact ⟨w, by rwa [welcome?_congr h.logs.welcomes] at hw, rfl⟩
  | welcomed h _ => exact absurd rfl (hlegacy _ _ _ _ _)
  | welcomedForMember h => exact absurd rfl (hstrict _ _ _ _ _ _ _)
  | accepted h _ =>
    rw [h.welcome] at hw
    split_ifs at hw with hkey
    · obtain ⟨rfl, rfl, rfl⟩ := hkey
      cases hw
      exact ⟨_, h.stored, rfl⟩
    · exact ⟨w, hw, rfl⟩

variable {sha256Hex : String → String}

/-- A strict welcome that succeeds has its row. -/
theorem saveMLSWelcomeForMember_row {g room senderCode targetCode pid welcome : String}
    {epoch : UInt64} {b : Bool}
    (h : s.saveMLSWelcomeForMember sha256Hex g room senderCode epoch targetCode pid welcome =
      .ok (b, s')) :
    ∃ t w, s'.welcome? g epoch.toNat t = some w ∧ w.welcome = welcome := by
  simp only [saveMLSWelcomeForMember, bind_eq_ok, require_eq_ok] at h
  obtain ⟨-, -, -, -, sender, -, target, -, -, -, -, hpid, e, he, h⟩ := h
  obtain ⟨rfl, hnonneg⟩ := mlsEpochValue_ok he
  refine ⟨target, ?_⟩
  rcases saveMLSWelcomeForMemberTx_ok hnonneg (validProposalID_ne hpid) h with
    ⟨rfl, rfl⟩ | ⟨-, p, r, hw⟩
  · unfold saveMLSWelcomeForMemberTx at h
    split at h
    · cases h
    simp only [bind_eq_ok] at h
    obtain ⟨-, -, -, -, h⟩ := h
    split at h
    · cases h
    simp only [bind_eq_ok] at h
    obtain ⟨-, -, h⟩ := h
    split at h
    · cases h
    simp only [bind_eq_ok] at h
    obtain ⟨-, -, h⟩ := h
    split at h
    · rename_i w hw
      simp only [bind_eq_ok, require_eq_ok, Bool.and_eq_true, beq_iff_eq] at h
      obtain ⟨-, hsame, -⟩ := h
      exact ⟨w, hw, hsame.1.1⟩
    · simp only [bind_eq_ok, pure, Except.pure, Except.ok.injEq, Prod.mk.injEq] at h
      obtain ⟨-, -, htrue, -⟩ := h
      cases htrue
  · exact ⟨_, (hw.stores.welcome _ _ _).trans (if_pos ⟨rfl, rfl, rfl⟩), rfl⟩

/-- A legacy welcome that succeeds has its row. -/
theorem saveMLSWelcome_row {g room targetCode welcome : String} {epoch : UInt64} {b : Bool}
    (h : s.saveMLSWelcome g room epoch targetCode welcome = .ok (b, s')) :
    ∃ t w, s'.welcome? g epoch.toNat t = some w ∧ w.welcome = welcome := by
  simp only [saveMLSWelcome, bind_eq_ok] at h
  obtain ⟨-, -, -, -, target, -, -, -, e, he, h⟩ := h
  obtain ⟨rfl, hnonneg⟩ := mlsEpochValue_ok he
  refine ⟨target, ?_⟩
  rcases saveMLSWelcomeTx_ok hnonneg h with ⟨rfl, rfl⟩ | ⟨-, hw⟩
  · unfold saveMLSWelcomeTx at h
    split at h
    · rename_i w hw
      simp only [bind_eq_ok, require_eq_ok, beq_iff_eq] at h
      obtain ⟨-, hsame, -⟩ := h
      exact ⟨w, hw, hsame⟩
    · simp only [bind_eq_ok, pure, Except.pure, Except.ok.injEq, Prod.mk.injEq] at h
      obtain ⟨-, -, -, -, htrue, -⟩ := h
      cases htrue
  · exact ⟨_, (hw.welcome _ _ _).trans (if_pos ⟨rfl, rfl, rfl⟩), rfl⟩

/-- What a successful `mapM` returns comes from the list. -/
theorem exists_of_mem_mapM {α β ε : Type} {f : α → Except ε β} {l : List α} {bs : List β}
    (h : l.mapM f = .ok bs) {b : β} (hb : b ∈ bs) : ∃ a ∈ l, f a = .ok b := by
  induction l generalizing bs with
  | nil =>
    rw [List.mapM_nil] at h
    cases h
    cases hb
  | cons a l ih =>
    rw [List.mapM_cons] at h
    cases hfa : f a with
    | error x =>
      rw [hfa] at h
      cases h
    | ok y =>
      rw [hfa] at h
      cases hfl : l.mapM f with
      | error x =>
        rw [hfl] at h
        cases h
      | ok ys =>
        rw [hfl] at h
        cases h
        rcases List.mem_cons.1 hb with rfl | hb
        · exact ⟨a, List.mem_cons_self, hfa⟩
        · obtain ⟨a', ha', hfa'⟩ := ih hfl hb
          exact ⟨a', List.mem_cons_of_mem _ ha', hfa'⟩

/-- A pending welcome is a row of the store. -/
theorem pendingMLSWelcomes_row {code : String} {welcomes : List PendingMlsWelcome}
    (h : s.pendingMLSWelcomes code = .ok welcomes) {p : PendingMlsWelcome} (hp : p ∈ welcomes) :
    ∃ e u w, s.welcome? p.groupID e u = some w ∧ w.welcome = p.welcome := by
  unfold pendingMLSWelcomes at h
  obtain ⟨target, -, h⟩ := bind_eq_ok.1 h
  obtain ⟨w, hw, hrow⟩ := exists_of_mem_mapM h hp
  have hmem : w ∈ s.welcomes.rows :=
    (List.mem_filter.1 ((List.mem_insertionSort _).1 hw)).1
  have hlookup : s.welcome? w.groupID w.epoch w.targetCode = some w :=
    Table.lookup_of_mem (fun _ _ => Table.keyClash_of_eq _) s.welcomes hmem
  unfold pendingRow at hrow
  split at hrow
  · cases hrow
  split at hrow
  · cases hrow
  · cases hrow
    exact ⟨_, _, w, hlookup, rfl⟩

end MlsStore

namespace Hub

open GoStrings Registry MlsStore

variable {h : Hub}

/-- A welcome with a payload is stored. -/
def Backed (s : MlsStore) (m : Message) : Prop :=
  m.type = .mlsGroupWelcome → m.welcome ≠ "" →
    ∃ e u w, s.welcome? m.groupID e u = some w ∧ w.welcome = m.welcome

theorem payload_step (platform : Platform) (hs : Sound h.registry) (e : Event) {g u : String}
    {n : ℤ} {w : MlsWelcome} (hw : h.db.mls.welcome? g n u = some w) :
    ∃ w', (step platform h e).db.mls.welcome? g n u = some w' ∧ w'.welcome = w.welcome := by
  rcases step_mls platform hs e with ⟨keyPackages, hmls⟩ | ⟨c, obj, m, op, -, -, heq⟩
  · rw [hmls]
    exact ⟨w, hw, rfl⟩
  · rw [heq]
    exact (apply_effect _ op).payload hw

/-- A welcome is stored only for a welcome frame with its group and payload. -/
theorem welcome_row_step (platform : Platform) (hs : Sound h.registry) (e : Event) {g u : String}
    {n : ℤ} {w : MlsWelcome} (hw : (step platform h e).db.mls.welcome? g n u = some w) :
    (∃ w', h.db.mls.welcome? g n u = some w' ∧ w'.welcome = w.welcome) ∨
      ∃ c obj m, FrameOf h e c obj m ∧ m.type = .mlsGroupWelcome ∧ m.groupID = g ∧
        m.welcome = w.welcome := by
  rcases step_mls platform hs e with ⟨keyPackages, hmls⟩ | ⟨c, obj, m, op, hframe, hop, heq⟩
  · rw [hmls] at hw
    exact .inl ⟨w, hw, rfl⟩
  rw [heq] at hw
  have hnew : ∀ {room : String} {x : MlsWelcome}, m.type = .mlsGroupWelcome →
      x.groupID = m.groupID → x.welcome = m.welcome →
      StoresWelcome h.db.mls (h.db.mls.apply platform.sha256Hex op) room x →
      (∃ w', h.db.mls.welcome? g n u = some w' ∧ w'.welcome = w.welcome) ∨
        ∃ c obj m, FrameOf h e c obj m ∧ m.type = .mlsGroupWelcome ∧ m.groupID = g ∧
          m.welcome = w.welcome := by
    intro room x ht hg hpayload hx
    rcases hx.row hw with hold | ⟨rfl, rfl⟩
    · exact .inl ⟨w, hold, rfl⟩
    · exact .inr ⟨c, obj, m, hframe, ht, hg.symm, hpayload.symm⟩
  cases hop with
  | welcomeForMember room target ht =>
    unfold apply at hw hnew
    cases hr : h.db.mls.result platform.sha256Hex (.saveMLSWelcomeForMember m.groupID room
        obj.normalizedCode m.epoch target m.proposalID m.welcome) with
    | error x =>
      rw [hr] at hw
      exact .inl ⟨w, hw, rfl⟩
    | ok s' =>
      rw [hr] at hw hnew
      obtain ⟨⟨b, s''⟩, hsave, rfl⟩ := map_eq_ok.1 hr
      rcases saveMLSWelcomeForMember_ok hsave with ⟨-, rfl⟩ | ⟨-, _, _, _, _, -, -, hx⟩
      · exact .inl ⟨w, hw, rfl⟩
      · exact hnew ht rfl rfl hx.stores
  | welcome room target ht =>
    unfold apply at hw hnew
    cases hr : h.db.mls.result platform.sha256Hex (.saveMLSWelcome m.groupID room m.epoch target
        m.welcome) with
    | error x =>
      rw [hr] at hw
      exact .inl ⟨w, hw, rfl⟩
    | ok s' =>
      rw [hr] at hw hnew
      obtain ⟨⟨b, s''⟩, hsave, rfl⟩ := map_eq_ok.1 hr
      rcases saveMLSWelcome_ok hsave with ⟨-, rfl⟩ | ⟨-, _, -, hx⟩
      · exact .inl ⟨w, hw, rfl⟩
      · exact hnew ht rfl rfl hx
  | _ =>
    refine .inl ((apply_effect _ _).welcome_row ?_ ?_ hw)
    · intro _ _ _ _ _ h
      cases h
    · intro _ _ _ _ _ _ _ h
      cases h

theorem Backed.step (platform : Platform) (hs : Sound h.registry) (e : Event) {m : Message}
    (hm : Backed h.db.mls m) : Backed (step platform h e).db.mls m := by
  intro ht hne
  obtain ⟨n, u, w, hw, hpayload⟩ := hm ht hne
  obtain ⟨w', hw', heq⟩ := payload_step platform hs e hw
  exact ⟨n, u, w', hw', heq.trans hpayload⟩

theorem backed_of_type {s : MlsStore} {m : Message} (ht : m.type ≠ .mlsGroupWelcome) :
    Backed s m := fun h => absurd h ht

/-- Every welcome that waits for a client is backed. -/
def QueuesBacked (h : Hub) : Prop := Holds (fun _ m => Backed h.db.mls m) h.registry

theorem Holds.tellCode {r : Registry} {P : ClientID → Message → Prop} {code : String} {m : Message}
    (hr : Holds P r) (hm : ∀ c, P c m) : Holds P (tellCode r code m) := by
  unfold Hub.tellCode
  split
  · exact hr.deliver (hm _)
  · exact hr

theorem Holds.tellMembers {r : Registry} {P : ClientID → Message → Prop} {members : List String}
    {senderCode : String} {m : Message} (hr : Holds P r) (hm : ∀ c, P c m) :
    Holds P (tellMembers r members senderCode m) :=
  Holds.foldl (fun _ _ h => Holds.tellCode h hm) _ hr

theorem Holds.tellRoom {r : Registry} {P : ClientID → Message → Prop} {env : Env} {room : String}
    {sender : ClientID} {m : Message} (hr : Holds P r) (hm : ∀ c, P c m) :
    Holds P (tellRoom r env room sender m) :=
  Holds.foldl (fun _ _ h => Holds.deliver h (hm _)) _ hr

/-- The handler relays a welcome only when its row is there. -/
theorem backed_handleMLSGroupWelcome (platform : Platform) (env : Env) (c : ClientID)
    (q : WelcomeRequest) (hh : QueuesBacked h)
    (hkeep : ∀ m, Backed h.db.mls m →
      Backed (h.handleMLSGroupWelcome platform env c q).db.mls m) :
    QueuesBacked (h.handleMLSGroupWelcome platform env c q) := by
  have herror : ∀ text, QueuesBacked (h.deliverError c text "" q.commandID) := fun text =>
    hh.deliver (backed_of_type (by simp))
  unfold QueuesBacked
  revert hkeep
  unfold handleMLSGroupWelcome
  split
  · exact fun _ => hh
  split
  · exact fun _ => herror _
  split
  · exact fun _ => herror _
  rename_i target _
  split
  · unfold welcomeForMember
    dsimp only
    split
    · exact fun _ => herror _
    split
    · exact fun _ => herror _
    rename_i inserted mls hcall
    intro hkeep
    obtain ⟨t, w, hw, hpayload⟩ := saveMLSWelcomeForMember_row (call_eq_ok.1 hcall).2
    refine Holds.deliver (Holds.tellCode (hh.mono fun _ m hm => hkeep m hm) fun _ _ _ => ?_)
      fun _ hne => absurd rfl hne
    exact ⟨_, t, w, hw, hpayload⟩
  · unfold welcomeLegacy
    dsimp only
    split
    · exact fun _ => herror _
    split
    · exact fun _ => herror _
    rename_i inserted mls hcall
    intro hkeep
    obtain ⟨t, w, hw, hpayload⟩ := saveMLSWelcome_row (call_eq_ok.1 hcall).2
    refine Holds.deliver (Holds.tellCode (hh.mono fun _ m hm => hkeep m hm) fun _ _ _ => ?_)
      fun _ hne => absurd rfl hne
    exact ⟨_, t, w, hw, hpayload⟩

/-- The login goroutine sends what it has loaded from the two tables. -/
theorem holds_replay {P : Message → Prop} (env : Env) (c : ClientID)
    (hh : Holds (fun _ m => P m) h.registry) (hsystem : ∀ m : Message, m.type = .system → P m)
    (hoffline : ∀ obj, h.registry.client? c = some obj → obj.replay = [] → obj.stage = .offline →
      ¬ env.fails .takeOfflineMessages = true →
        ∀ m ∈ (h.db.chat.takeOfflineMessages obj.userCode).1, P m)
    (hwelcomes : ∀ code welcomes, h.db.mls.pendingMLSWelcomes code = .ok welcomes →
      ∀ p ∈ welcomes, P (welcomeReplay p)) :
    Holds (fun _ m => P m) (h.replay env c).registry := by
  unfold replay
  split
  · exact hh
  rename_i obj hobj
  split
  · rename_i message rest hreplay
    have hrest : ∀ m ∈ message :: rest, P m := by
      intro m hm
      refine hh c obj hobj m (List.mem_append_right _ ?_)
      rw [hreplay]
      exact hm
    split
    · have hended : Holds (fun _ m => P m)
          (h.registry.modifyClient c fun o => { o with stage := .ended, replay := [] }) := by
        refine Holds.modifyClient hh fun o ho x hx => .inl ?_
        rw [List.append_nil] at hx
        exact List.mem_append_left _ hx
      have hmoves : Moves False [.system]
          (h.registry.modifyClient c fun o => { o with stage := .ended, replay := [] })
          ((h.registry.modifyClient c fun o =>
            { o with stage := .ended, replay := [] }).unregisterClient env c) :=
        moves_unregisterClient (by simp) env c
      exact hmoves.holds (fun _ m hm => hsystem m (List.mem_singleton.1 hm)) hended
    split
    · have hpushed : Holds (fun _ m => P m)
          (h.registry.modifyClient c fun o => { o with replay := rest }) := by
        refine Holds.modifyClient hh fun o ho x hx => ?_
        rcases List.mem_append.1 hx with hx | hx
        · exact .inl (List.mem_append_left _ hx)
        · exact .inr (hrest x (List.mem_cons_of_mem _ hx))
      exact hpushed.enqueue (hrest message List.mem_cons_self)
    · exact hh
  · rename_i hreplay
    split
    · rename_i hstage
      refine Holds.modifyClient hh fun o _ x hx => ?_
      rcases List.mem_append.1 hx with hx | hx
      · exact .inl (List.mem_append_left _ hx)
      · dsimp only at hx
        split at hx
        · cases hx
        · rename_i htake
          exact .inr (hoffline obj hobj hreplay hstage htake x hx)
    · refine Holds.modifyClient hh fun o _ x hx => ?_
      rcases List.mem_append.1 hx with hx | hx
      · exact .inl (List.mem_append_left _ hx)
      · dsimp only at hx
        split at hx
        · rename_i welcomes hcall
          obtain ⟨p, hp, rfl⟩ := List.mem_map.1 hx
          exact .inr (hwelcomes _ welcomes (call_eq_ok.1 hcall).2 p hp)
        · cases hx
    · exact hh
    · exact hh

theorem backed_replay (env : Env) (c : ClientID) (hh : QueuesBacked h) :
    Holds (fun _ m => Backed h.db.mls m) (h.replay env c).registry := by
  refine holds_replay env c hh (fun m hm => backed_of_type (by simp [hm])) ?_ ?_
  · intro obj _ _ _ _ m hm
    obtain ⟨row, -, rfl⟩ := List.mem_map.1 hm
    exact backed_of_type (by simp)
  · intro code welcomes hpending p hp _ _
    exact pendingMLSWelcomes_row hpending hp

/-- Every event keeps the queues backed. -/
theorem backed_step (platform : Platform) (hs : Sound h.registry) (e : Event)
    (hh : QueuesBacked h) : QueuesBacked (step platform h e) := by
  have hkeep : Holds (fun _ m => Backed (step platform h e).db.mls m) h.registry :=
    hh.mono fun _ m hm => hm.step platform hs e
  cases hlive : e.input.isRestart with
  | true =>
    obtain ⟨input, env⟩ := e
    cases input with
    | restart adminCode => exact hkeep.of_objects fun _ => rfl
    | _ => cases hlive
  | false =>
    by_cases hsend : MessageType.mlsGroupWelcome ∈ e.input.sends
    · cases hinput : e.input with
      | frame c m limited muted =>
        have ht : m.type = .mlsGroupWelcome := by
          cases ht : m.type with
          | mlsGroupWelcome => rfl
          | _ =>
            simp [hinput, Input.sends, ht, frameTypes, chatTypes, roomTypes, recallTypes,
              adminTypes, requestTypes] at hsend
        have hquiet : ∀ {k : Hub}, k.db.mls = (step platform h e).db.mls →
            Touches [] [.system, .error] h k → QueuesBacked k := by
          intro k hk htouch
          unfold QueuesBacked
          rw [hk]
          exact htouch.moves.holds (fun _ m hm => backed_of_type fun ht => by simp [ht] at hm) hkeep
        have heq : step platform h e = h.readPump platform e.env c m limited muted := by
          simp only [step, hinput]
        rcases readPump_cases (h := h) platform e.env c m limited muted with hq | ⟨obj, -, hd⟩
        · rw [← heq] at hq
          exact hquiet rfl hq
        have hdispatch : step platform h e = h.validated c m "" m.commandID fun h =>
            h.handleMLSGroupWelcome platform e.env c ⟨m.groupID, m.room, m.epoch, m.proposalID,
              m.welcomeDigest, normalizedOrEmpty m.targetUserCode, m.welcome, m.commandID⟩ := by
          rw [heq, hd]
          unfold dispatch
          rw [ht]
        rcases validated_cases (h := h) c m "" m.commandID (fun h =>
            h.handleMLSGroupWelcome platform e.env c ⟨m.groupID, m.room, m.epoch, m.proposalID,
              m.welcomeDigest, normalizedOrEmpty m.targetUserCode, m.welcome, m.commandID⟩) with
          hq | ⟨-, hv⟩
        · rw [← hdispatch] at hq
          exact hquiet rfl hq
        · have hkeep' : ∀ m, Backed h.db.mls m → Backed (step platform h e).db.mls m :=
            fun m hm => hm.step platform hs e
          rw [hdispatch, hv] at hkeep' ⊢
          exact backed_handleMLSGroupWelcome platform e.env c _ hh hkeep'
      | replay c =>
        have heq : (step platform h e).db.mls = h.db.mls :=
          (step_touches platform hs e hlive).same .mls (by simp [hinput, Input.writes])
        unfold QueuesBacked
        rw [heq]
        simp only [step, hinput]
        split
        · exact backed_replay e.env c hh
        · exact hh
      | _ => simp [hinput, Input.sends, adminTypes, historyTypes] at hsend
    · exact (step_touches platform hs e hlive).moves.holds
        (fun _ m hm => backed_of_type fun ht => hsend (ht ▸ hm)) hkeep

end Hub

end LanChat
