import BackupEngine.Lemmas.Disconnect

/-!
# Each disconnect once

`MessageClient` and `MessageClientGroup` do not remove the connection they report as disconnected: they reset their own copy
of the pointer, and remove the null entries of the list. A connection that is still in the list is reported again by the
broadcast that follows, or stays in it. So a disconnect is reported once, and the connection is gone from the list, exactly
when the closed connections these calls are given are not in the list (and were not reported before).
-/

namespace Netzwerk

open Server

variable {T : Type}

/-- Each connection was reported as disconnected at most once, and none of those reported is in the list. -/
def NotifiedOnce (s : Server T) : Prop := s.notified.Nodup ∧ ∀ client ∈ s.notified, some client ∉ s.deqConnections

/-- The closed connections a call names are different, not in the list, and were not reported before. -/
def CallClear (w : World T) (s : Server T) (c : MessageCall T) : Prop :=
  (s.closedOf w c).Nodup ∧ ∀ client ∈ s.closedOf w c, some client ∉ s.deqConnections ∧ client ∉ s.notified

/-- A run of calls in which every call is clear in the state it is made in. -/
def CallsClear (w : World T) (s : Server T) (cs : List (MessageCall T)) : Prop :=
  ∀ before c after, cs = before ++ c :: after → ∀ t, s.calls w before = some t → CallClear w t c

theorem mem_conns {s : Server T} {client : ConnPtr} : client ∈ s.conns ↔ some client ∈ s.deqConnections := by
  simp [conns]

/-- The list without repetition and the reports once: that is a tally without repetition. -/
theorem nodup_tally_iff {s : Server T} : s.tally.Nodup ↔ s.conns.Nodup ∧ NotifiedOnce s := by
  unfold tally NotifiedOnce
  rw [List.nodup_append']
  constructor
  · rintro ⟨h₁, h₂, h₃⟩
    exact ⟨h₁, h₂, fun client hc hmem => h₃ (mem_conns.mpr hmem) hc⟩
  · rintro ⟨h₁, h₂, h₃⟩
    exact ⟨h₁, h₂, fun client hmem hc => h₃ client hc (mem_conns.mp hmem)⟩

/-- Adding the closed connections of a call to the tally brings no repetition exactly when the call is clear. -/
theorem nodup_tally_append_iff {w : World T} {s : Server T} {c : MessageCall T} (h : s.tally.Nodup) :
    (s.tally ++ s.closedOf w c).Nodup ↔ CallClear w s c := by
  unfold CallClear
  rw [List.nodup_append']
  constructor
  · rintro ⟨_, h₂, h₃⟩
    refine ⟨h₂, fun client hc => ⟨fun hmem => ?_, fun hmem => ?_⟩⟩
    · exact h₃ (List.mem_append_left _ (mem_conns.mpr hmem)) hc
    · exact h₃ (List.mem_append_right _ hmem) hc
  · rintro ⟨h₂, h₃⟩
    refine ⟨h, h₂, fun client hmem hc => ?_⟩
    rcases List.mem_append.mp hmem with hmem | hmem
    · exact (h₃ client hc).1 (mem_conns.mp hmem)
    · exact (h₃ client hc).2 hmem

/-- One call, from a server without repetitions: the reports are still once if and only if the call was clear. -/
theorem call_notifiedOnce_iff {w : World T} {s t : Server T} {c : MessageCall T} (hs : s.tally.Nodup)
    (h : s.call w c = some t) : t.tally.Nodup ∧ NotifiedOnce t ↔ CallClear w s c := by
  obtain ⟨t', ht', htally, _⟩ := s.call_spec w c
  rw [h] at ht'
  cases ht'
  rw [← nodup_tally_append_iff hs, ← htally.nodup_iff]
  exact ⟨fun h => h.1, fun h => ⟨h, (nodup_tally_iff.mp h).2⟩⟩

theorem calls_concat (w : World T) (s : Server T) (cs : List (MessageCall T)) (c : MessageCall T) :
    s.calls w (cs ++ [c]) = (s.calls w cs).bind fun t => t.call w c := by
  unfold calls
  rw [List.foldlM_append]
  congr 1
  funext t
  simp only [List.foldlM_cons, List.foldlM_nil]
  cases t.call w c <;> rfl

/-- A sequence of calls returns, and its list has only connections the list had before. -/
theorem calls_spec (w : World T) (s : Server T) (cs : List (MessageCall T)) :
    ∃ t, s.calls w cs = some t ∧ t.conns.Sublist s.conns := by
  induction cs using List.reverseRecOn with
  | nil => exact ⟨s, rfl, .refl _⟩
  | append_singleton cs c ih =>
    obtain ⟨t, ht, hsub⟩ := ih
    obtain ⟨u, hu, _, hsub'⟩ := t.call_spec w c
    exact ⟨u, by rw [calls_concat, ht]; exact hu, hsub'.trans hsub⟩

/-- For every world, every list of connections without repetition and every sequence of calls: after each call every
disconnect was reported at most once, and the connections reported are not in the list, if and only if each call is clear. -/
theorem notifiedOnce_iff (w : World T) (deqConnections : List (Option ConnPtr)) (cs : List (MessageCall T))
    (hdeq : (deqConnections.filterMap id).Nodup) :
    (∀ before, before <+: cs → ∃ t, Server.calls w { deqConnections := deqConnections } before = some t ∧ NotifiedOnce t) ↔
      CallsClear w { deqConnections := deqConnections } cs := by
  generalize hs : ({ deqConnections := deqConnections } : Server T) = s
  have hconns : s.conns.Nodup := by
    rw [← hs]
    exact hdeq
  have hstart : s.tally.Nodup := by
    rw [← hs] at hconns ⊢
    exact nodup_tally_iff.mpr ⟨hconns, List.nodup_nil, fun _ h => nomatch h⟩
  constructor
  · rintro h before c after rfl t ht
    obtain ⟨t', ht', honce⟩ := h before (List.prefix_append _ _)
    obtain ⟨t'', ht'', hsub⟩ := calls_spec w s before
    rw [ht] at ht' ht''
    cases ht'
    cases ht''
    obtain ⟨u, hu, honce'⟩ := h (before ++ [c]) ⟨after, by simp⟩
    rw [calls_concat, ht] at hu
    have hu : t.call w c = some u := hu
    obtain ⟨u', hu', _, hsub'⟩ := t.call_spec w c
    rw [hu] at hu'
    cases hu'
    have htally : t.tally.Nodup := nodup_tally_iff.mpr ⟨hconns.sublist hsub, honce⟩
    have htally' : u.tally.Nodup := nodup_tally_iff.mpr ⟨hconns.sublist (hsub'.trans hsub), honce'⟩
    exact (call_notifiedOnce_iff htally hu).mp ⟨htally', honce'⟩
  · intro hclear before hbefore
    have hrun : ∃ t, s.calls w before = some t ∧ t.tally.Nodup := by
      induction before using List.reverseRecOn with
      | nil => exact ⟨s, rfl, hstart⟩
      | append_singleton before c ih =>
        obtain ⟨after, rfl⟩ := hbefore
        obtain ⟨t, ht, htally⟩ := ih ⟨c :: after, by simp⟩
        obtain ⟨u, hu, _, _⟩ := t.call_spec w c
        have hc : CallClear w t c := hclear before c after (by simp) t ht
        exact ⟨u, by rw [calls_concat, ht]; exact hu, ((call_notifiedOnce_iff htally hu).mpr hc).1⟩
    obtain ⟨t, ht, htally⟩ := hrun
    exact ⟨t, ht, (nodup_tally_iff.mp htally).2⟩

/-- Connection 1 is closed, all others are open, and `OnClientDisconnect` returns its default. -/
def closedOne : World UInt32 where
  isConnected := fun _ client => client ≠ 1
  onClientDisconnect := fun _ _ => default

/-- A broadcast reports the closed connection once and removes it. -/
theorem notifiedOnce_iff_broadcast :
    ∃ t, Server.calls closedOne { deqConnections := [some 1, some 2] } [.all default none] = some t ∧ NotifiedOnce t := by
  refine (notifiedOnce_iff closedOne [some 1, some 2] [.all default none] (by decide)).mpr ?_ _ (List.prefix_refl _)
  intro before c after h t _
  have hc : c = .all default none := by
    have : c ∈ [MessageCall.all (default : Message UInt32) none] := h ▸ List.mem_append_right _ List.mem_cons_self
    simpa using this
  rw [hc]
  exact ⟨List.nodup_nil, fun _ h => nomatch h⟩

/-- A closed connection given to `MessageClient` while it is in the list: it is reported twice. -/
theorem closed_client_twice :
    ([some 1, some 2].filterMap id : List ConnPtr).Nodup ∧
      ∃ t, Server.calls closedOne { deqConnections := [some 1, some 2] } [.client (some 1) default] = some t ∧
        t.notified = [1, 1] ∧ ¬NotifiedOnce t := by
  refine ⟨by decide, _, rfl, rfl, ?_⟩
  rintro ⟨hnodup, _⟩
  revert hnodup
  decide

end Netzwerk
