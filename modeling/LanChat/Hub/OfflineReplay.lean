import LanChat.Hub.Places

/-!
# Offline messages that a login takes

`TakeOfflineMessages` deletes the rows, and the login goroutine then sends them one by one into a
channel that the Hub may close.

* `InHand h c m`: the goroutine of session `c` has still to send `m`;
* `dropsRows h e`: the goroutine finds its channel closed, or the process ends, while it holds rows;
* `inHand_step`: every other event leaves what is in hand, or puts it into the send queue;
* `Trace.offline_rows_kept`: in a run without such an event no row is lost.
-/

namespace LanChat

namespace Registry

variable {r r' r'' : Registry} {walks : Prop} {types : List MessageType}

/-- The process is the same, and the login goroutines still hold their offline messages. -/
structure KeepsReplays (r r' : Registry) : Prop where
  boot : r'.boot = r.boot
  length : r.objects.length ≤ r'.objects.length
  rows : ∀ c o, r.client? c = some o → ∃ o', r'.client? c = some o' ∧
    ∀ m ∈ o.replay, m.type = .offlineMessage → m ∈ o'.replay

theorem KeepsReplays.refl (r : Registry) : KeepsReplays r r :=
  ⟨rfl, Nat.le_refl _, fun _ o hc => ⟨o, hc, fun _ hm _ => hm⟩⟩

theorem KeepsReplays.trans (h : KeepsReplays r r') (h' : KeepsReplays r' r'') : KeepsReplays r r'' := by
  refine ⟨h'.boot.trans h.boot, h.length.trans h'.length, fun c o hc => ?_⟩
  obtain ⟨o', hc', hkeep⟩ := h.rows c o hc
  obtain ⟨o'', hc'', hkeep'⟩ := h'.rows c o' hc'
  exact ⟨o'', hc'', fun m hm ht => hkeep' m (hkeep m hm ht) ht⟩

theorem keepsReplays_modifyClient {c : ClientID} {f : Client → Client}
    (hf : ∀ o, r.client? c = some o → ∀ m ∈ o.replay, m.type = .offlineMessage → m ∈ (f o).replay) :
    KeepsReplays r (r.modifyClient c f) := by
  refine ⟨rfl, (length_modifyClient c f).ge, fun d o hd => ?_⟩
  rw [client?_modifyClient]
  split_ifs with hcd
  · subst hcd
    exact ⟨f o, by rw [hd, Option.map_some], hf o hd⟩
  · exact ⟨o, hd, fun _ hm _ => hm⟩

theorem Fades.keepsReplays (h : Fades r r') : KeepsReplays r r' := by
  refine ⟨h.boot, h.length.ge, fun c o hc => ?_⟩
  have hobject := h.object c
  rw [hc, Option.map_some] at hobject
  obtain ⟨o', ho', hprofile⟩ := Option.map_eq_some_iff.1 hobject
  have hreplay : (profile o').replay = (profile o).replay := by rw [hprofile]
  exact ⟨o', ho', fun m hm _ => hreplay.symm ▸ hm⟩

theorem keepsReplays_enqueue (r : Registry) (c : ClientID) (m : Message) :
    KeepsReplays r (r.enqueue c m) := by
  have hsend : KeepsReplays r (r.modifyClient c fun o => { o with send := o.send ++ [m] }) :=
    keepsReplays_modifyClient fun _ _ _ hm _ => hm
  exact ⟨hsend.boot, hsend.length, hsend.rows⟩

/-- A move that may not send what a goroutine sends leaves the goroutines alone. -/
theorem Move.keepsReplays (h : Move walks types r r') (htypes : ∀ t ∈ replayTypes, t ∉ types) :
    KeepsReplays r r' := by
  have hoffline : MessageType.offlineMessage ∉ types := htypes _ (by decide)
  cases h with
  | deliver c m hm => exact (fades_deliver c m).keepsReplays
  | remove c => exact (fades_removeClient c).keepsReplays
  | close c => exact (fades_closeSend c).keepsReplays
  | go c room hw hc hroom =>
    refine ⟨boot_removeFromRoom c, (length_moveTo c room).ge, fun d o hd => ?_⟩
    rw [client?_moveTo, hd]
    split_ifs
    · exact ⟨_, rfl, fun _ hm _ => hm⟩
    · exact ⟨o, rfl, fun _ hm _ => hm⟩
  | mute c => exact keepsReplays_modifyClient fun _ _ _ hm _ => hm
  | pump c => exact keepsReplays_modifyClient fun _ _ _ hm _ => hm
  | enroll obj =>
    refine ⟨rfl, ?_, fun d o hd => ?_⟩
    · change r.objects.length ≤ (r.objects ++ [obj]).length
      rw [List.length_append]
      omega
    · rw [client?_enroll, if_neg (client?_lt hd).ne, hd]
      exact ⟨o, rfl, fun _ hm _ => hm⟩
  | dropRoom room hempty => exact ⟨rfl, Nat.le_refl _, fun _ o hc => ⟨o, hc, fun _ hm _ => hm⟩⟩
  | load c stage replay hreplay _ hload =>
    obtain ⟨t, ht, hmem⟩ := hload
    exact absurd hmem (htypes t ht)
  | push c obj message rest hc hobj hm =>
    have hrest : KeepsReplays r (r.modifyClient c fun o => { o with replay := rest }) := by
      refine keepsReplays_modifyClient fun o ho m hmem ht => ?_
      cases hc.symm.trans ho
      rw [hobj] at hmem
      rcases List.mem_cons.1 hmem with rfl | hmem
      · exact absurd (ht ▸ hm) hoffline
      · exact hmem
    exact hrest.trans (keepsReplays_enqueue _ c message)

theorem Moves.keepsReplays (h : Moves walks types r r') (htypes : ∀ t ∈ replayTypes, t ∉ types) :
    KeepsReplays r r' := by
  induction h with
  | refl => exact KeepsReplays.refl r
  | tail _ hmove ih => exact ih.trans (hmove.keepsReplays htypes)

end Registry

namespace Hub

open Registry

variable {h : Hub} {platform : Platform}

/-- The login goroutine of a session has still to send a message. -/
def InHand (h : Hub) (c : ClientID) (m : Message) : Prop :=
  h.alive c = true ∧ ∃ o, h.registry.client? c = some o ∧ m ∈ o.replay

/-- The login goroutine of a session holds offline messages. -/
def holdsRows (h : Hub) (c : ClientID) : Bool :=
  h.alive c && (h.registry.client? c).any fun o => o.replay.any fun m => m.type == .offlineMessage

/-- A login goroutine goes on to a closed channel, or the process ends, with rows in hand. -/
def dropsRows (h : Hub) (e : Event) : Bool :=
  match e.input with
  | .replay c => h.holdsRows c && (h.registry.client? c).any fun o => o.sendClosed
  | .restart _ => (List.range h.registry.objects.length).any h.holdsRows
  | _ => false

theorem holdsRows_of_inHand {c : ClientID} {m : Message} (hm : h.InHand c m)
    (ht : m.type = .offlineMessage) : h.holdsRows c = true := by
  obtain ⟨halive, o, ho, hmem⟩ := hm
  unfold holdsRows
  rw [halive, ho, Bool.true_and, Option.any_some, List.any_eq_true]
  exact ⟨m, hmem, beq_iff_eq.2 ht⟩

theorem InHand.of_keepsReplays {k : Hub} {c : ClientID} {m : Message} (hm : h.InHand c m)
    (ht : m.type = .offlineMessage) (hkeep : KeepsReplays h.registry k.registry) : k.InHand c m := by
  obtain ⟨halive, o, ho, hmem⟩ := hm
  obtain ⟨o', ho', hrows⟩ := hkeep.rows c o ho
  refine ⟨?_, o', ho', hrows m hmem ht⟩
  have hlength := hkeep.length
  unfold alive at halive ⊢
  rw [hkeep.boot, decide_eq_true_eq]
  rw [decide_eq_true_eq] at halive
  exact ⟨halive.1, lt_of_lt_of_le halive.2 hlength⟩

theorem fades_tellCode {r : Registry} (code : String) (m : Message) :
    Fades r (tellCode r code m) := by
  unfold tellCode
  split
  · exact fades_tell _ _
  · exact Fades.refl r

/-- A relayed welcome is a delivery. -/
theorem fades_handleMLSGroupWelcome (platform : Platform) (env : Env) (c : ClientID)
    (q : WelcomeRequest) :
    Fades h.registry (h.handleMLSGroupWelcome platform env c q).registry := by
  have herror : ∀ text, Fades h.registry (h.deliverError c text "" q.commandID).registry :=
    fun text => fades_deliver c _
  unfold handleMLSGroupWelcome
  split
  · exact Fades.refl _
  split
  · exact herror _
  split
  · exact herror _
  split
  · unfold welcomeForMember
    dsimp only
    split
    · exact herror _
    split
    · exact herror _
    · exact (fades_tellCode _ _).trans (fades_tell _ _)
  · unfold welcomeLegacy
    dsimp only
    split
    · exact herror _
    split
    · exact herror _
    · exact (fades_tellCode _ _).trans (fades_tell _ _)

theorem keepsReplays_of_touches {k : Hub} {parts : List Part} {types : List MessageType}
    (htouch : Touches parts types h k) (htypes : ∀ t ∈ replayTypes, t ∉ types) :
    KeepsReplays h.registry k.registry := htouch.moves.keepsReplays htypes

/-- Events of other goroutines leave the login goroutines alone. -/
theorem keepsReplays_step (platform : Platform) (hs : Sound h.registry) (e : Event)
    (hreplay : ∀ c, e.input ≠ .replay c) (hlive : e.input.isRestart = false) :
    KeepsReplays h.registry (step platform h e).registry := by
  by_cases htypes : ∀ t ∈ replayTypes, t ∉ e.input.sends
  · exact keepsReplays_of_touches (step_touches platform hs e hlive) htypes
  · obtain ⟨input, env⟩ := e
    cases input with
    | replay c => exact absurd rfl (hreplay c)
    | frame c m limited muted =>
      have ht : m.type = .mlsGroupWelcome := by
        by_contra hne
        refine htypes fun t ht => ?_
        revert hne t
        change ¬ m.type = _ → ∀ t ∈ replayTypes, t ∉ .system :: frameTypes m.type
        cases m.type with
        | other name =>
          exact fun _ => (by decide : ∀ t ∈ replayTypes, t ∉ [.system, .system, .error])
        | mlsGroupWelcome => exact fun hne => absurd rfl hne
        | _ => exact fun _ => by decide
      have hquiet : ∀ {k : Hub}, Touches [] [.system, .error] h k →
          KeepsReplays h.registry k.registry := fun hq => keepsReplays_of_touches hq (by decide)
      change KeepsReplays _ (h.readPump platform env c m limited muted).registry
      rcases readPump_cases (h := h) platform env c m limited muted with hq | ⟨obj, -, hd⟩
      · exact hquiet hq
      rw [hd]
      unfold dispatch
      rw [ht]
      dsimp only
      rcases validated_cases (h := h) c m "" m.commandID (fun h =>
          h.handleMLSGroupWelcome platform env c ⟨m.groupID, m.room, m.epoch, m.proposalID,
            m.welcomeDigest, normalizedOrEmpty m.targetUserCode, m.welcome, m.commandID⟩) with
        hq | ⟨-, hv⟩
      · exact hquiet hq
      · rw [hv]
        exact (fades_handleMLSGroupWelcome platform env c _).keepsReplays
    | _ => exact absurd (by simp [Input.sends, adminTypes, historyTypes, replayTypes]) htypes

/-- What has been sent stays on the log. -/
theorem mem_sent_step (platform : Platform) (hs : Sound h.registry) (e : Event)
    {x : ClientID × Message} (hx : x ∈ h.registry.sent) :
    x ∈ (step platform h e).registry.sent := by
  obtain ⟨out, hout⟩ := sent_step platform hs e
  rw [hout]
  exact List.mem_append_left _ hx

/-- The goroutine sends the first message in hand, and keeps the others. -/
theorem inHand_replay (env : Env) {c d : ClientID} {m : Message} (hd : h.alive d = true)
    (hclosed : ∀ o, h.registry.client? d = some o → o.sendClosed = true → h.holdsRows d ≠ true)
    (hm : h.InHand c m) (ht : m.type = .offlineMessage) :
    (h.replay env d).InHand c m ∨ (c, m) ∈ (h.replay env d).registry.sent := by
  -- a session with nothing in hand loses nothing when its list is replaced
  have hkeep : ∀ {k : Hub}, KeepsReplays h.registry k.registry → k.InHand c m ∨
      (c, m) ∈ k.registry.sent := fun hk => .inl (hm.of_keepsReplays ht hk)
  unfold replay
  split
  · exact .inl hm
  rename_i obj hobj
  have hreplace : ∀ {f : Client → Client}, (∀ x ∈ obj.replay, x.type ≠ .offlineMessage) →
      KeepsReplays h.registry (h.registry.modifyClient d f) := by
    intro f hnone
    refine keepsReplays_modifyClient fun o ho x hx hxt => ?_
    cases hobj.symm.trans ho
    exact absurd hxt (hnone x hx)
  split
  · rename_i message rest hreplay
    split
    · rename_i hsend
      have hended : KeepsReplays h.registry
          (h.registry.modifyClient d fun o => { o with stage := .ended, replay := [] }) :=
        hreplace fun x hx hxt =>
          hclosed obj hobj hsend (holdsRows_of_inHand ⟨hd, obj, hobj, hx⟩ hxt)
      have hleave : Moves False [.system]
          (h.registry.modifyClient d fun o => { o with stage := .ended, replay := [] })
          ((h.registry.modifyClient d fun o =>
            { o with stage := .ended, replay := [] }).unregisterClient env d) :=
        moves_unregisterClient (by simp) env d
      exact hkeep (hended.trans (hleave.keepsReplays (by decide)))
    split
    · obtain ⟨halive, o, ho, hmem⟩ := hm
      by_cases hfirst : c = d ∧ m = message
      · obtain ⟨rfl, rfl⟩ := hfirst
        refine .inr ?_
        change _ ∈ h.registry.sent ++ [_]
        exact List.mem_append_right _ (List.mem_singleton.2 rfl)
      · have hrest : (h.onRegistry fun r =>
            r.modifyClient d fun o => { o with replay := rest }).InHand c m := by
          refine ⟨?_, ?_⟩
          · unfold alive at halive ⊢
            rwa [onRegistry, length_modifyClient]
          · change ∃ o, (h.registry.modifyClient d _).client? c = some o ∧ m ∈ o.replay
            rw [client?_modifyClient]
            split_ifs with hcd
            · subst hcd
              cases hobj.symm.trans ho
              rw [hreplay] at hmem
              refine ⟨_, by rw [hobj, Option.map_some], ?_⟩
              rcases List.mem_cons.1 hmem with rfl | hmem
              · exact absurd ⟨rfl, rfl⟩ hfirst
              · exact hmem
            · exact ⟨o, ho, hmem⟩
        exact .inl (hrest.of_keepsReplays ht (keepsReplays_enqueue _ d message))
    · exact .inl hm
  · rename_i hempty
    have hnone : ∀ x ∈ obj.replay, x.type ≠ .offlineMessage := by
      rw [hempty]
      exact fun _ hx => absurd hx List.not_mem_nil
    split
    · exact hkeep (hreplace hnone)
    · exact hkeep (hreplace hnone)
    · exact .inl hm
    · exact .inl hm

/-- What the target of a row gets. -/
def offlineMessage (row : OfflineRow) (targetCode : String) : Message :=
  { type := .offlineMessage, username := row.senderUsername, userCode := row.senderCode
    content := row.content, messageID := row.messageID, createdAt := row.createdAt
    targetUserCode := targetCode }

/-- The login goroutine of session `c`, a client `o`, deletes a row of `offline_messages`. -/
structure TakesRow (platform : Platform) (h : Hub) (e : Event) (c : ClientID) (o : Client)
    (row : OfflineRow) : Prop where
  input : e.input = .replay c
  client : h.registry.client? c = some o
  stored : row ∈ h.db.chat.offline.rows
  deleted : row ∉ (step platform h e).db.chat.offline.rows

/-- A row that has been taken is in hand. -/
theorem TakesRow.inHand {e : Event} {c : ClientID} {o : Client} {row : OfflineRow}
    (ht : TakesRow platform h e c o row) :
    (step platform h e).InHand c (offlineMessage row o.userCode) := by
  obtain ⟨hinput, ho, hstored, hdeleted⟩ := ht
  have hstep : step platform h e = if h.alive c then h.replay e.env c else h := by
    simp only [step, hinput]
  rw [hstep] at hdeleted ⊢
  by_cases halive : h.alive c = true
  · rw [if_pos halive] at hdeleted ⊢
    unfold replay at hdeleted ⊢
    rw [ho] at hdeleted ⊢
    dsimp only at hdeleted ⊢
    cases hreplay : o.replay with
    | cons message rest =>
      rw [hreplay] at hdeleted
      dsimp only at hdeleted
      split_ifs at hdeleted <;> exact absurd hstored hdeleted
    | nil =>
      rw [hreplay] at hdeleted
      dsimp only at hdeleted ⊢
      cases hstage : o.stage with
      | offline =>
        rw [hstage] at hdeleted
        dsimp only at hdeleted ⊢
        by_cases hfails : e.env.fails .takeOfflineMessages = true
        · rw [if_pos hfails] at hdeleted
          exact absurd hstored hdeleted
        · rw [if_neg hfails] at hdeleted ⊢
          refine ⟨?_, ?_⟩
          · unfold alive at halive ⊢
            rwa [length_modifyClient]
          · change ∃ o, (h.registry.modifyClient c _).client? c = some o ∧ _ ∈ o.replay
            rw [client?_modifyClient, if_pos rfl, ho]
            refine ⟨_, rfl, List.mem_map.2 ⟨row, List.mem_filter.2 ⟨hstored, ?_⟩, rfl⟩⟩
            -- the rows that stay are those of other targets
            by_contra hother
            refine hdeleted (List.mem_filter.2 ⟨hstored, ?_⟩)
            simpa using hother
      | welcomes | reading | ended =>
        rw [hstage] at hdeleted
        exact absurd hstored hdeleted
  · rw [if_neg halive] at hdeleted
    exact absurd hstored hdeleted

/-- An event that drops no rows leaves them in hand, or puts them into the send queue. -/
theorem inHand_step (platform : Platform) (hs : Sound h.registry) {e : Event}
    (hdrop : h.dropsRows e = false) {c : ClientID} {m : Message} (hm : h.InHand c m)
    (ht : m.type = .offlineMessage) :
    (step platform h e).InHand c m ∨ (c, m) ∈ (step platform h e).registry.sent := by
  have hquiet : (∀ d, e.input ≠ .replay d) → e.input.isRestart = false →
      (step platform h e).InHand c m ∨ (c, m) ∈ (step platform h e).registry.sent :=
    fun hreplay hlive => .inl (hm.of_keepsReplays ht (keepsReplays_step platform hs e hreplay hlive))
  obtain ⟨input, env⟩ := e
  cases input with
  | replay d =>
    change (if h.alive d then h.replay env d else h).InHand c m ∨
      (c, m) ∈ (if h.alive d then h.replay env d else h).registry.sent
    split_ifs with halive
    · refine inHand_replay env halive (fun o ho hclosed hrows => ?_) hm ht
      unfold dropsRows at hdrop
      simp [hrows, ho, hclosed] at hdrop
    · exact .inl hm
  | restart adminCode =>
    -- the session is one of those that the process ends with
    have hrows := holdsRows_of_inHand hm ht
    obtain ⟨-, o, ho, -⟩ := hm
    unfold dropsRows at hdrop
    have hnone := List.any_eq_false.1 hdrop c (List.mem_range.2 (client?_lt ho))
    exact absurd hrows hnone
  | _ => exact hquiet (fun _ => Input.noConfusion) rfl

namespace Trace

variable {r : Trace}

/-- In every run in which no goroutine goes on to a closed channel with rows in hand, a row that
`TakeOfflineMessages` has deleted is in the send queue, or in hand. -/
theorem sent_or_inHand
    (hkeep : ∀ n (hn : n < r.events.length), (r.hub n).dropsRows r.events[n] = false)
    {i : ℕ} (hi : i < r.events.length) {c : ClientID} {o : Client} {row : OfflineRow}
    (htake : TakesRow r.platform (r.hub i) r.events[i] c o row) {n : ℕ} (hin : i < n)
    (hn : n ≤ r.events.length) :
    (c, offlineMessage row o.userCode) ∈ (r.hub n).registry.sent ∨
      (r.hub n).InHand c (offlineMessage row o.userCode) := by
  induction n, hin using Nat.le_induction with
  | base =>
    rw [hub_succ hi]
    exact .inr htake.inHand
  | succ n hin ih =>
    have hlt : n < r.events.length := hn
    have hs : Sound (r.hub n).registry := sound_run r.platform r.adminCode r.offlineStore _
    rw [hub_succ hlt]
    rcases ih hlt.le with hsent | hhand
    · exact .inl (mem_sent_step r.platform hs _ hsent)
    · exact (inHand_step r.platform hs (hkeep n hlt) hhand rfl).symm

/-- In such a run every row that `TakeOfflineMessages` has deleted for a session is in its send
queue, or available for a later login, once the goroutine holds no more rows. -/
theorem offline_rows_kept
    (hkeep : ∀ n (hn : n < r.events.length), (r.hub n).dropsRows r.events[n] = false)
    {i : ℕ} (hi : i < r.events.length) {c : ClientID} {o : Client} {row : OfflineRow}
    (htake : TakesRow r.platform (r.hub i) r.events[i] c o row) {n : ℕ} (hin : i < n)
    (hn : n ≤ r.events.length) (hdone : (r.hub n).holdsRows c = false) :
    (c, offlineMessage row o.userCode) ∈ (r.hub n).registry.sent ∨
      row ∈ (r.hub n).db.chat.offline.rows := by
  rcases sent_or_inHand hkeep hi htake hin hn with hsent | hhand
  · exact .inl hsent
  · rw [holdsRows_of_inHand hhand rfl] at hdone
    cases hdone

end Trace

/-! ### Bob writes while Alice is away -/

/-- Bob's message is stored, and Alice's next login takes it. -/
def takesMessage : List Event :=
  sessionEvents 0 "alice" "A001" ++ sessionEvents 1 "bob" "B001" ++
    [⟨.unregister 0, {}⟩,
      frameEvent 1 { type := .privateChat, targetUserCode := "A001", content := "hi"
                     messageID := "m1" },
      ⟨.login "alice" "A001", {}⟩, ⟨.replay 2, {}⟩]

/-- Her goroutine goes on. -/
def readsMessage : Trace := ⟨samplePlatform, "", true, takesMessage ++ [⟨.replay 2, {}⟩]⟩

/-- Her connection ends before the goroutine goes on. -/
def losesMessage : Trace :=
  ⟨samplePlatform, "", true, takesMessage ++ [⟨.unregister 2, {}⟩, ⟨.replay 2, {}⟩]⟩

/-- The row of his message. -/
def bobsRow : OfflineRow := ⟨"a001", "bob", "B001", "hi", "m1", "1970-01-01T00:00:00Z"⟩

theorem exists_takesRow {e : Event} {c : ClientID} {code : String} {row : OfflineRow}
    (hinput : e.input = .replay c)
    (hclient : ((h.registry.client? c).any fun o => o.userCode == code) = true)
    (hstored : row ∈ h.db.chat.offline.rows)
    (hdeleted : row ∉ (step platform h e).db.chat.offline.rows) :
    ∃ o, o.userCode = code ∧ TakesRow platform h e c o row := by
  obtain ⟨o, ho, hcode⟩ := (Option.any_eq_true _ _).1 hclient
  exact ⟨o, beq_iff_eq.1 hcode, hinput, ho, hstored, hdeleted⟩

theorem offline_rows_kept_bob :
    (2, offlineMessage bobsRow "A001") ∈ (readsMessage.hub 11).registry.sent ∨
      bobsRow ∈ (readsMessage.hub 11).db.chat.offline.rows := by
  have htaken : ∃ o : Client, o.userCode = "A001" ∧
      TakesRow samplePlatform (readsMessage.hub 9) readsMessage.events[9] 2 o bobsRow :=
    exists_takesRow rfl (by decide +kernel) (by decide +kernel) (by decide +kernel)
  obtain ⟨o, hcode, htake⟩ := htaken
  rw [← hcode]
  exact Trace.offline_rows_kept (r := readsMessage) (by decide +kernel) (by decide) htake
    (by decide) (by decide) (by decide +kernel)

/-- The row is gone and was never sent. -/
theorem offline_row_lost :
    ¬ ∀ (r : Trace) (i : ℕ) (hi : i < r.events.length) (c : ClientID) (o : Client)
      (row : OfflineRow), TakesRow r.platform (r.hub i) r.events[i] c o row →
        ∀ n, i < n → n ≤ r.events.length → (r.hub n).holdsRows c = false →
          (c, offlineMessage row o.userCode) ∈ (r.hub n).registry.sent ∨
            row ∈ (r.hub n).db.chat.offline.rows := by
  intro hkept
  have htaken : ∃ o : Client, o.userCode = "A001" ∧
      TakesRow samplePlatform (losesMessage.hub 9) losesMessage.events[9] 2 o bobsRow :=
    exists_takesRow rfl (by decide +kernel) (by decide +kernel) (by decide +kernel)
  obtain ⟨o, hcode, htake⟩ := htaken
  have hlost := hkept losesMessage 9 (by decide) 2 o bobsRow htake 12 (by decide) (by decide)
    (by decide +kernel)
  rw [hcode] at hlost
  revert hlost
  decide +kernel

end Hub

end LanChat
