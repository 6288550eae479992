import BackupEngine.EventSystem.Dispatch

/-!
# Rules for handing out events

Handing out an event only adds to the queue and to the calls made. The inner loop of `update` does for an entry of the queue
what `addInstantTrigger` does for the event, so that a rule about one of them is a rule about both.
-/

namespace Events

open Cpp

namespace Dispatcher

variable {σ : Type} {onEvent : OnEvent σ} {s t u : Dispatcher σ} {e l : Addr}

/-! ## What stays while events are handed out -/

/-- The listeners stay, and the queue only grows at its end. -/
structure Extends (s t : Dispatcher σ) : Prop where
  listener : t.listener = s.listener
  onNextUpdate : s.onNextUpdate <+: t.onNextUpdate

theorem Extends.refl (s : Dispatcher σ) : Extends s s := ⟨rfl, List.prefix_refl _⟩

theorem Extends.trans (h : Extends s t) (h' : Extends t u) : Extends s u :=
  ⟨h'.listener.trans h.listener, h.onNextUpdate.trans h'.onNextUpdate⟩

/-- An entry of the queue stays at its place. -/
theorem Extends.getElem? (h : Extends s t) {i : Nat} (hi : s.onNextUpdate[i]? = some e) :
    t.onNextUpdate[i]? = some e := by
  obtain ⟨queued, hq⟩ := h.onNextUpdate
  rw [← hq, List.getElem?_append_left (List.getElem?_eq_some_iff.mp hi).1, hi]

/-- Events given to `addUpdateTrigger` one after another stand at the end of the queue, in order. -/
theorem foldl_addUpdateTrigger (es : List Addr) (s : Dispatcher σ) :
    es.foldl addUpdateTrigger s = { s with onNextUpdate := s.onNextUpdate ++ es } := by
  induction es generalizing s with
  | nil => simp
  | cons e es ih => rw [List.foldl_cons, ih, addUpdateTrigger, List.append_assoc, List.singleton_append]

/-- A call of `onEvent` is the next one made. -/
theorem call_spec {consumed : Bool} (h : s.call onEvent l e = .ok (consumed, t)) :
    Extends s t ∧ t.calls = s.calls ++ [(l, e)] := by
  obtain ⟨answer, _, hr⟩ := bind_eq_ok.mp h
  cases hr
  rw [foldl_addUpdateTrigger]
  exact ⟨⟨rfl, List.prefix_append _ _⟩, rfl⟩

/-- An event goes to the first listeners of those that are left, up to one of them or to all. -/
theorem instantLoop_spec {ls : List Addr} {i : Nat} (h : instantLoop onEvent e ls i s = .ok t) :
    Extends s t ∧ ∃ asked, asked <+: ls ∧ t.calls = s.calls ++ asked.map (·, e) := by
  induction ls generalizing s i with
  | nil =>
    cases h
    exact ⟨.refl _, [], List.prefix_refl _, by simp⟩
  | cons l ls ih =>
    obtain ⟨⟨consumed, r⟩, hcall, h⟩ := bind_eq_ok.mp h
    obtain ⟨hext, hcalls⟩ := call_spec hcall
    obtain ⟨stop, _, h⟩ := bind_eq_ok.mp h
    split at h
    · cases h
      exact ⟨hext, [l], by simp, hcalls⟩
    · obtain ⟨_, _, h⟩ := bind_eq_ok.mp h
      obtain ⟨hext', asked, hasked, hcalls'⟩ := ih h
      refine ⟨hext.trans hext', l :: asked, by simpa using hasked, ?_⟩
      rw [hcalls', hcalls, List.map_cons, List.append_assoc, List.singleton_append]

/-- The inner loop of `update` does for the event at its place of the queue what `addInstantTrigger` does. -/
theorem listenerLoop_eq {i : Nat} {ls : List Addr} {j : Nat} (hi : s.onNextUpdate[i]? = some e) :
    listenerLoop onEvent i ls j s = instantLoop onEvent e ls j s := by
  induction ls generalizing s j with
  | nil => rfl
  | cons l ls ih =>
    rw [listenerLoop, instantLoop, elemAt_eq_ok.mpr hi, ok_bind]
    -- The queue may have grown when the event is read again; the entry is still at its place.
    cases hcall : s.call onEvent l e with
    | error => rw [error_bind, error_bind]
    | ok r =>
      have hr := (call_spec hcall).1.getElem? hi
      simp only [ok_bind, elemAt_eq_ok.mpr hr]
      refine congrArg (andAlso r.1 (r.2.usable e) >>= ·) (funext fun stop => ?_)
      split
      · rfl
      · exact congrArg (int (j + 1) >>= ·) (funext fun _ => ih hr)

/-- Deleting an event leaves the rest. -/
theorem discard_spec (h : s.discard e = .ok t) : Extends s t ∧ t.calls = s.calls := by
  obtain ⟨event, _, h⟩ := bind_eq_ok.mp h
  split at h
  · obtain ⟨_, _, h⟩ := bind_eq_ok.mp h
    cases h
    exact ⟨⟨rfl, List.prefix_refl _⟩, rfl⟩
  · cases h
    exact ⟨.refl _, rfl⟩

/-! ## The events that were served -/

/-- The events of the list are served in order: each is handed out by `addInstantTrigger`, in the state the ones before it left,
to the listeners of `asked`, and is then deleted if it says so. -/
inductive Serves (onEvent : OnEvent σ) : Dispatcher σ → List (Addr × List Addr) → Dispatcher σ → Prop
  | nil (s : Dispatcher σ) : Serves onEvent s [] s
  | cons {s r u t : Dispatcher σ} {e : Addr} {asked : List Addr} {rest : List (Addr × List Addr)}
      (handed : s.addInstantTrigger onEvent e = .ok r) (calls : r.calls = s.calls ++ asked.map (·, e))
      (discarded : r.discard e = .ok u) (served : Serves onEvent u rest t) : Serves onEvent s ((e, asked) :: rest) t

theorem Serves.extends {es : List (Addr × List Addr)} (h : Serves onEvent s es t) : Extends s t := by
  induction h with
  | nil s => exact .refl s
  | cons handed _ discarded _ ih => exact ((instantLoop_spec handed).1.trans (discard_spec discarded).1).trans ih

/-- The calls of `onEvent` made: those for the first event, then those for the second, and so on. -/
theorem Serves.calls_eq {es : List (Addr × List Addr)} (h : Serves onEvent s es t) :
    t.calls = s.calls ++ es.flatMap fun p => p.2.map (·, p.1) := by
  induction h with
  | nil s => simp
  | cons _ calls discarded _ ih => rw [ih, (discard_spec discarded).2, calls, List.flatMap_cons, List.append_assoc]

/-- The outer loop serves the entries from its place on, those added under way included. -/
theorem queueLoop_serves {fuel i : Nat} (h : queueLoop onEvent fuel i s = .ok (some t)) :
    ∃ es, Serves onEvent s es t ∧ es.map Prod.fst = t.onNextUpdate.drop i := by
  induction fuel generalizing s i with
  | zero => cases h
  | succ fuel ih =>
    rw [queueLoop] at h
    split at h
    · rename_i hi
      obtain ⟨r, hloop, h⟩ := bind_eq_ok.mp h
      have he := List.getElem?_eq_getElem hi
      rw [listenerLoop_eq he] at hloop
      obtain ⟨hext, asked, _, hcalls⟩ := instantLoop_spec hloop
      rw [elemAt_eq_ok.mpr (hext.getElem? he), ok_bind] at h
      obtain ⟨u, hdiscard, h⟩ := bind_eq_ok.mp h
      obtain ⟨_, _, h⟩ := bind_eq_ok.mp h
      obtain ⟨es, hes, hmap⟩ := ih h
      refine ⟨(s.onNextUpdate[i], asked) :: es, .cons hloop hcalls hdiscard hes, ?_⟩
      -- What the rest of the loop served stands behind the entry at the place `i`.
      have hat := ((hext.trans (discard_spec hdiscard).1).trans hes.extends).getElem? he
      obtain ⟨hlt, hget⟩ := List.getElem?_eq_some_iff.mp hat
      rw [List.map_cons, hmap, List.drop_eq_getElem_cons hlt, hget]
    · rename_i hi
      cases h
      exact ⟨[], .nil _, by rw [List.drop_eq_nil_of_le (Nat.not_lt.mp hi), List.map_nil]⟩

/-! ## Invariants

What every call of `onEvent` keeps is kept by the loops around it; and two kinds of listeners that answer alike as long as an
invariant holds are handed the same events. -/

section Invariant

variable {P : Dispatcher σ → Prop} {onEvent' : OnEvent σ}
  (hcall : ∀ {s l e consumed t}, P s → s.call onEvent l e = .ok (consumed, t) → P t)

include hcall

theorem instantLoop_invariant {ls : List Addr} {i : Nat} (hs : P s) (h : instantLoop onEvent e ls i s = .ok t) : P t := by
  induction ls generalizing s i with
  | nil =>
    cases h
    exact hs
  | cons l ls ih =>
    obtain ⟨⟨consumed, r⟩, hr, h⟩ := bind_eq_ok.mp h
    obtain ⟨stop, _, h⟩ := bind_eq_ok.mp h
    split at h
    · cases h
      exact hcall hs hr
    · obtain ⟨_, _, h⟩ := bind_eq_ok.mp h
      exact ih (hcall hs hr) h

theorem Serves.invariant (hdiscard : ∀ {s e t}, P s → s.discard e = .ok t → P t) {es : List (Addr × List Addr)} (hs : P s)
    (h : Serves onEvent s es t) : P t := by
  induction h with
  | nil => exact hs
  | cons handed _ discarded _ ih => exact ih (hdiscard (instantLoop_invariant hcall hs handed) discarded)

variable (heq : ∀ {s l} e, P s → l ∈ s.listener → s.call onEvent l e = s.call onEvent' l e)

include heq

theorem instantLoop_congr {ls : List Addr} {i : Nat} (hls : ∀ l ∈ ls, l ∈ s.listener) (hs : P s) :
    instantLoop onEvent e ls i s = instantLoop onEvent' e ls i s := by
  induction ls generalizing s i with
  | nil => rfl
  | cons l ls ih =>
    rw [instantLoop, instantLoop, ← heq e hs (hls l List.mem_cons_self)]
    cases hr : s.call onEvent l e with
    | error => rw [error_bind, error_bind]
    | ok r =>
      simp only [ok_bind]
      refine congrArg (andAlso r.1 (r.2.usable e) >>= ·) (funext fun stop => ?_)
      split
      · rfl
      · refine congrArg (int (i + 1) >>= ·) (funext fun _ => ih (fun m hm => ?_) (hcall hs hr))
        rw [(call_spec hr).1.listener]
        exact hls m (List.mem_cons_of_mem _ hm)

theorem queueLoop_congr (hdiscard : ∀ {s e t}, P s → s.discard e = .ok t → P t) {fuel i : Nat} (hs : P s) :
    queueLoop onEvent fuel i s = queueLoop onEvent' fuel i s := by
  induction fuel generalizing s i with
  | zero => rw [queueLoop, queueLoop]
  | succ fuel ih =>
    rw [queueLoop, queueLoop]
    split
    · rename_i hi
      have he := List.getElem?_eq_getElem hi
      rw [listenerLoop_eq he, listenerLoop_eq he, ← instantLoop_congr hcall heq (fun _ => id) hs]
      cases hr : instantLoop onEvent s.onNextUpdate[i] s.listener 0 s with
      | error => rw [error_bind, error_bind]
      | ok r =>
        have hP := instantLoop_invariant hcall hs hr
        rw [ok_bind, ok_bind, elemAt_eq_ok.mpr ((instantLoop_spec hr).1.getElem? he), ok_bind, ok_bind]
        cases hu : r.discard s.onNextUpdate[i] with
        | error => rw [error_bind, error_bind]
        | ok u =>
          rw [ok_bind, ok_bind]
          exact congrArg (int (i + 1) >>= ·) (funext fun _ => ih (hdiscard hP hu))
    · rfl

end Invariant

end Dispatcher

end Events
