import BackupEngine.Netzwerk.ServerBase

/-!
# Where the connections go

The tally of a server is the connections in its list together with those `OnClientDisconnect` was called for. The loop and
`MessageAllClients` only move connections from the list to the calls, so they keep the tally up to order; `MessageClient` and
`MessageClientGroup` add to it the connections they were given and found closed.
-/

namespace Netzwerk

open List (Perm)

variable {T : Type}

namespace Server

/-- The connections in the list, then those `OnClientDisconnect` was called for. -/
def tally (s : Server T) : List ConnPtr := s.conns ++ s.notified

/-- A client is notified by an entry of the log. -/
theorem notified_append (s : Server T) (e : ServerEvent T) :
    notified { s with log := s.log ++ [e] } = s.notified ++ (match e with
      | .onClientDisconnect client => client.toList
      | .send _ _ => []) := by
  unfold notified
  rw [List.filterMap_append]
  cases e with
  | send client msg => rfl
  | onClientDisconnect client => cases client <;> rfl

/-- A `Send` notifies nobody. -/
@[simp] theorem notified_send (s : Server T) (client : Option ConnPtr) (msg : Message T) :
    (s.send client msg).notified = s.notified := by
  cases client with
  | none => simp [send]
  | some client => exact (notified_append s (.send client msg)).trans (List.append_nil _)

/-- `OnClientDisconnect` notifies its client. -/
@[simp] theorem notified_onClientDisconnect (w : World T) (s : Server T) (client : Option ConnPtr) :
    (s.onClientDisconnect w client).2.notified = s.notified ++ client.toList :=
  notified_append s (.onClientDisconnect client)

/-- Asking whether a client is connected notifies nobody. -/
@[simp] theorem notified_isConnected (w : World T) (s : Server T) (client : Option ConnPtr) :
    (s.isConnected w client).2.notified = s.notified := by
  cases client <;> rfl

/-- It leaves the deque alone. -/
@[simp] theorem deqConnections_isConnected (w : World T) (s : Server T) (client : Option ConnPtr) :
    (s.isConnected w client).2.deqConnections = s.deqConnections := by
  cases client <;> rfl

/-- Removing the null entries removes no connection. -/
@[simp] theorem conns_erase_none (s : Server T) : (s.erase none).conns = s.conns := by
  unfold conns erase
  rw [List.filterMap_filter]
  congr 1
  funext client
  cases client <;> simp

/-- What the loop did with `clients` in the server `s`: it left the list of the server alone, kept the connections in its
elements and the calls together up to order, and reset an element for every message it collected. -/
structure Swept (clients : List (Option ConnPtr)) (s : Server T) (clients' : List (Option ConnPtr))
    (after : List (Message T)) (s' : Server T) : Prop where
  deqConnections : s'.deqConnections = s.deqConnections
  calls : s.notified <+: s'.notified
  tally : (clients'.filterMap id ++ s'.notified).Perm (clients.filterMap id ++ s.notified)
  conns : (clients'.filterMap id).Sublist (clients.filterMap id)
  length_eq : clients'.length = clients.length
  reset_le : (clients'.filter (· ≠ none)).length + after.length ≤ clients.length

/-- The clients of a list without the null pointers. -/
theorem filterMap_cons_client (client : Option ConnPtr) (clients : List (Option ConnPtr)) :
    (client :: clients).filterMap id = client.toList ++ clients.filterMap id := by
  cases client <;> rfl

section Swept

variable {clients clients' : List (Option ConnPtr)} {s s₀ s' : Server T} {after : List (Message T)}

/-- An element that is kept, whether it was skipped or found open. -/
theorem Swept.keep (client : Option ConnPtr) (h : Swept clients s₀ clients' after s')
    (hdeq : s₀.deqConnections = s.deqConnections) (hnot : s₀.notified = s.notified) :
    Swept (client :: clients) s (client :: clients') after s' where
  deqConnections := h.deqConnections.trans hdeq
  calls := hnot ▸ h.calls
  tally := by
    rw [filterMap_cons_client, filterMap_cons_client, List.append_assoc, List.append_assoc, ← hnot]
    exact h.tally.append_left _
  conns := by
    rw [filterMap_cons_client, filterMap_cons_client]
    exact h.conns.append_left _
  length_eq := by simp [h.length_eq]
  reset_le := by
    have hle : ((client :: clients').filter (· ≠ none)).length ≤ (clients'.filter (· ≠ none)).length + 1 := by
      rw [List.filter_cons]
      split <;> simp
    have := h.reset_le
    simp only [List.length_cons]
    omega

/-- A connection that is gone moves from the elements to the calls. -/
theorem Swept.drop (client : Option ConnPtr) (toSend : Message T) (h : Swept clients s₀ clients' after s')
    (hdeq : s₀.deqConnections = s.deqConnections) (hnot : s₀.notified = s.notified ++ client.toList) :
    Swept (client :: clients) s (none :: clients') (toSend :: after) s' where
  deqConnections := h.deqConnections.trans hdeq
  calls := (List.prefix_append _ _).trans (hnot ▸ h.calls)
  tally := by
    have htally := h.tally
    rw [hnot, ← List.append_assoc] at htally
    rw [filterMap_cons_client client clients, List.append_assoc]
    exact htally.trans List.perm_append_comm
  conns := by
    rw [filterMap_cons_client client clients]
    exact h.conns.trans (List.sublist_append_right _ _)
  length_eq := by simp [h.length_eq]
  reset_le := by
    have hnull : (none :: clients').filter (· ≠ none) = clients'.filter (· ≠ none) := by simp
    have := h.reset_le
    rw [hnull]
    simp only [List.length_cons]
    omega

end Swept

/-- The loop of both broadcasting functions. -/
theorem messageEach_spec (w : World T) (skip : Option ConnPtr → Bool) (msg : Message T) (clients : List (Option ConnPtr)) :
    ∀ (s : Server T) {clients' after s'}, messageEach w skip msg clients s = (clients', after, s') →
      Swept clients s clients' after s' := by
  induction clients with
  | nil =>
    intro s clients' after s' h
    cases h
    exact ⟨rfl, List.prefix_refl _, .refl _, .refl _, rfl, Nat.le_refl _⟩
  | cons client clients ih =>
    intro s clients' after s' h
    unfold messageEach at h
    split at h
    · generalize hl : messageEach w skip msg clients s = r at h
      obtain ⟨l, after₀, s₁⟩ := r
      cases h
      exact (ih s hl).keep client rfl rfl
    · have hdeq := deqConnections_isConnected w s client
      have hnot := notified_isConnected w s client
      generalize s.isConnected w client = r at h hdeq hnot
      obtain ⟨connected, s₀⟩ := r
      simp only at h hdeq hnot
      split at h
      · generalize hl : messageEach w skip msg clients (s₀.send client msg) = r at h
        obtain ⟨l, after₀, s₁⟩ := r
        cases h
        exact (ih _ hl).keep client hdeq ((notified_send s₀ client msg).trans hnot)
      · have hdis := notified_onClientDisconnect w s₀ client
        generalize hd : s₀.onClientDisconnect w client = d at h hdis
        obtain ⟨toSend, s₂⟩ := d
        have hdeq₂ : s₂.deqConnections = s₀.deqConnections := by
          cases hd
          rfl
        generalize hl : messageEach w skip msg clients s₂ = r at h
        obtain ⟨l, after₀, s₁⟩ := r
        cases h
        exact (ih s₂ hl).drop client toSend (hdeq₂.trans hdeq) (hnot ▸ hdis)

/-- What `OnClientDisconnect` calls and removals leave of the server `s`: no longer a list, connections moved at most from
the list to the calls. -/
structure Moved (s t : Server T) : Prop where
  length_le : t.deqConnections.length ≤ s.deqConnections.length
  calls : s.notified <+: t.notified
  tally : t.tally.Perm s.tally
  conns : t.conns.Sublist s.conns

/-- Nothing was moved. -/
theorem Moved.refl (s : Server T) : Moved s s := ⟨Nat.le_refl _, List.prefix_refl _, .refl _, .refl _⟩

/-- Moves follow one another. -/
theorem Moved.trans {s t u : Server T} (h : Moved s t) (h' : Moved t u) : Moved s u :=
  ⟨Nat.le_trans h'.length_le h.length_le, h.calls.trans h'.calls, h'.tally.trans h.tally, h'.conns.trans h.conns⟩

/-- Erasing the null pointers moves nobody. -/
theorem Moved.erase_none (s : Server T) : Moved s (s.erase none) where
  length_le := List.length_filter_le _ _
  calls := List.prefix_refl _
  tally := by
    unfold Server.tally
    rw [conns_erase_none]
    exact .refl _
  conns := by rw [conns_erase_none]

/-- Sending a list of messages one after the other, each of them moving connections only. -/
theorem foldlM_moved {step : Server T → Message T → Option (Server T)} {n : Nat} (after : List (Message T))
    (hstep : ∀ s m, s.deqConnections.length ≤ n → ∃ t, step s m = some t ∧ Moved s t) :
    ∀ s : Server T, s.deqConnections.length ≤ n → ∃ t, after.foldlM step s = some t ∧ Moved s t := by
  induction after with
  | nil => exact fun s _ => ⟨s, rfl, Moved.refl s⟩
  | cons m after ih =>
    intro s hs
    obtain ⟨u, hu, hsu⟩ := hstep s m hs
    obtain ⟨t, ht, hut⟩ := ih u (Nat.le_trans hsu.length_le hs)
    exact ⟨t, by rw [List.foldlM_cons, hu]; exact ht, hsu.trans hut⟩

/-- The list of a server after the loop, as far as moving connections goes. -/
theorem Swept.moved {s s₁ : Server T} {clients : List (Option ConnPtr)} {after : List (Message T)}
    (h : Swept s.deqConnections s clients after s₁) : Moved s { s₁ with deqConnections := clients } where
  length_le := Nat.le_of_eq h.length_eq
  calls := h.calls
  tally := h.tally
  conns := h.conns

/-- `MessageAllClients` returns, and moves connections only. -/
theorem messageAllClientsWithin_spec (w : World T) (depth : Nat) :
    ∀ (s : Server T) (msg : Message T) (ignore : Option ConnPtr), s.deqConnections.length < depth →
      ∃ t, messageAllClientsWithin w depth s msg ignore = some t ∧ Moved s t := by
  induction depth with
  | zero => exact fun s _ _ h => absurd h (Nat.not_lt_zero _)
  | succ depth ih =>
    intro s msg ignore hs
    unfold messageAllClientsWithin
    generalize heach : messageEach w (· == ignore) msg s.deqConnections s = r
    obtain ⟨clients, after, s₁⟩ := r
    have hswept := messageEach_spec w _ msg s.deqConnections s heach
    have hmoved := hswept.moved
    cases after with
    | nil => exact ⟨{ s₁ with deqConnections := clients }, by simp, hmoved⟩
    | cons m after =>
      -- the loop reset an element, so the list is shorter once the null entries are removed
      have hlt : (clients.filter (· ≠ none)).length < s.deqConnections.length := by
        have := hswept.reset_le
        simp only [List.length_cons] at this
        omega
      obtain ⟨t, ht, hmoved'⟩ := foldlM_moved (m :: after) (fun u m hu => ih u m none (by omega))
        (({ s₁ with deqConnections := clients } : Server T).erase none) (Nat.le_refl (clients.filter (· ≠ none)).length)
      exact ⟨t, by simpa using ht, hmoved.trans ((Moved.erase_none _).trans hmoved')⟩

/-- The recursion may be deeper than the deque is long, so that the call returns. -/
theorem messageAllClients_spec (w : World T) (s : Server T) (msg : Message T) (ignore : Option ConnPtr) :
    ∃ t, s.messageAllClients w msg ignore = some t ∧ Moved s t :=
  messageAllClientsWithin_spec w _ s msg ignore (Nat.lt_succ_self _)

/-! ## The closed connections of a call -/

/-- The connections of a list that answer that they are not connected, the first of them asked as number `n`. -/
def closedAt (w : World T) : Nat → List (Option ConnPtr) → List ConnPtr
  | _, [] => []
  | n, none :: clients => closedAt w n clients
  | n, some client :: clients =>
    if w.isConnected n client then closedAt w (n + 1) clients else client :: closedAt w (n + 1) clients

/-- The connections a call names and finds closed. `MessageAllClients` names none. -/
def closedOf (w : World T) (s : Server T) : MessageCall T → List ConnPtr
  | .client client _ => closedAt w s.asked [client]
  | .group _ group => closedAt w s.asked group
  | .all _ _ => []

/-- The loop of `MessageClientGroup` calls `OnClientDisconnect` for the closed members of the group, in order. -/
theorem messageEach_group (w : World T) (msg : Message T) (clients : List (Option ConnPtr)) :
    ∀ s : Server T, (messageEach w (fun _ => false) msg clients s).2.2.notified =
      s.notified ++ closedAt w s.asked clients := by
  induction clients with
  | nil => exact fun s => (List.append_nil _).symm
  | cons client clients ih =>
    intro s
    simp only [messageEach, Bool.false_eq_true, if_false]
    cases client with
    | none =>
      simp only [isConnected, Bool.false_eq_true, if_false]
      rw [ih, notified_onClientDisconnect]
      exact congrArg (· ++ _) (List.append_nil _)
    | some client =>
      cases hopen : w.isConnected s.asked client with
      | true =>
        simp only [isConnected, hopen, if_true, closedAt]
        rw [ih, notified_send]
        rfl
      | false =>
        simp only [isConnected, hopen, Bool.false_eq_true, if_false, closedAt]
        rw [ih, notified_onClientDisconnect, List.append_assoc]
        rfl

/-- What a call does: it returns, and adds to the tally the connections it names and finds closed. -/
theorem call_spec (w : World T) (s : Server T) (c : MessageCall T) :
    ∃ t, s.call w c = some t ∧ t.tally.Perm (s.tally ++ s.closedOf w c) ∧ t.conns.Sublist s.conns := by
  cases c with
  | client client msg =>
    unfold call messageClient
    have hclosed : s.closedOf w (.client client msg) =
        if (s.isConnected w client).1 then [] else client.toList := by
      cases client with
      | none => rfl
      | some client => rfl
    have hdeq := deqConnections_isConnected w s client
    have hnot := notified_isConnected w s client
    rw [hclosed]
    rcases hr : s.isConnected w client with ⟨connected, s₀⟩
    simp only [hr] at hdeq hnot ⊢
    have hconns : s₀.conns = s.conns := by simp [conns, hdeq]
    by_cases hopen : connected = true
    · refine ⟨s₀.send client msg, by simp [hopen], ?_, ?_⟩
      · rw [if_pos hopen, List.append_nil, tally, tally, notified_send, hnot]
        exact .of_eq (congrArg (· ++ s.notified) hconns)
      · exact hconns ▸ .refl _
    · rw [if_neg hopen, if_neg hopen]
      obtain ⟨t, ht, hmoved⟩ := messageAllClients_spec w ((s₀.onClientDisconnect w client).2.erase none)
        (s₀.onClientDisconnect w client).1 none
      have hmoved := (Moved.erase_none (s₀.onClientDisconnect w client).2).trans hmoved
      refine ⟨t, ht, hmoved.tally.trans ?_, hconns ▸ hmoved.conns⟩
      rw [tally, tally, notified_onClientDisconnect, hnot, List.append_assoc]
      exact .of_eq (congrArg (· ++ (s.notified ++ client.toList)) hconns)
  | group msg group =>
    unfold call messageClientGroup
    have hnot := messageEach_group w msg group s
    rcases heach : messageEach w (fun _ => false) msg group s with ⟨clients, after, s₁⟩
    have hswept := messageEach_spec w _ msg group s heach
    simp only [heach] at hnot ⊢
    have htally : s₁.tally = s.tally ++ s.closedOf w (.group msg group) := by
      unfold tally conns closedOf
      rw [hswept.deqConnections, hnot, List.append_assoc]
    have hconns : s₁.conns = s.conns := by simp [conns, hswept.deqConnections]
    cases after with
    | nil => exact ⟨s₁, by simp, .of_eq htally, hconns ▸ .refl _⟩
    | cons m after =>
      obtain ⟨t, ht, hmoved⟩ := foldlM_moved (m :: after) (fun u m _ => messageAllClients_spec w u m none)
        (s₁.erase none) (Nat.le_refl _)
      have hmoved := (Moved.erase_none s₁).trans hmoved
      exact ⟨t, by simpa using ht, htally ▸ hmoved.tally, hconns ▸ hmoved.conns⟩
  | all msg ignore =>
    obtain ⟨t, ht, hmoved⟩ := messageAllClients_spec w s msg ignore
    exact ⟨t, ht, by simpa [closedOf] using hmoved.tally, hmoved.conns⟩

end Server

end Netzwerk
