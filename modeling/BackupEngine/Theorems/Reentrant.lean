import BackupEngine.Application.SceenViewer
import BackupEngine.EventSystem.Reentrant
import BackupEngine.Lib.IndexLoop

/-!
# Registering and removing during a dispatch

The dispatch loops count places in the vector of listeners. A listener that is removed at or before the place of the one that
runs moves the listeners behind it down by one, and the loop passes the next of them without calling it. Where nothing is
removed there while listeners from the start are still to come, and no listener is registered a second time, each listener
that stays registered is called exactly once, up to one that consumes the event.
-/

namespace Events

open Cpp Serializer Transition IndexLoop

namespace Reentrant

variable {κ C : Type} [ComponentClasses κ C] {T : C} {s t : Reentrant} {a : ReentrantStep κ} {el : Addr}

/-- When a dispatch is over, each listener that stayed registered from its start was called exactly once, unless the event was
consumed at a place before it. No listener was ever called after its removal. -/
structure Fair (s : Reentrant) : Prop where
  once : ∀ h stop, s.stage = .served h stop → ∀ l ∈ s.first, l ∉ s.dropped →
    s.called.count l = 1 ∨ s.called.count l = 0 ∧ ∃ j, stop = some j ∧ l ∈ s.listener.drop (j + 1)
  late : s.late = []

/-- No listener is registered a second time; and a listener that is removed while another one runs stands behind it, or none
of those behind it has been registered since the start of the dispatch. -/
def Careful (T : C) (s : Reentrant) : ReentrantStep κ → Prop
  | .addEventListener gameobject el => el ∈ gameobject.findComponents T → el ∉ s.listener
  | .removeEventListener el => ∀ h j, s.stage = .calling h j → el ∈ s.listener.take (j + 1) →
    ∀ l ∈ s.listener.drop (j + 1), l ∈ s.first → l ∈ s.dropped
  | _ => True

/-- How many places the loop over the listeners has behind it, where it runs or has just ended. -/
def Stage.behind (length : Nat) : Stage → Option Nat
  | .idle | .atEntry _ => none
  | .asking _ j => some j
  | .calling _ j | .served _ (some j) => some (j + 1)
  | .served _ none => some length

/-- No listener is registered twice, none that is gone is registered or was called, and the record of the dispatch is that of
a loop which has visited the places behind it. -/
structure Orderly (s : Reentrant) : Prop where
  nodup : s.listener.Nodup
  gone : ∀ l ∈ s.gone, l ∉ s.listener
  late : s.late = []
  visits : ∀ k, Stage.behind s.listener.length s.stage = some k → Visits s.first s.dropped s.called s.listener k

/-! ## The listeners after a call on the event system -/

theorem listener_addEventListener {this this' : EventSystem} {g : GameObject κ}
    (h : this.addEventListener T g el = .ok this') :
    this'.listener = if el ∈ g.findComponents T then this.listener ++ [el] else this.listener := by
  obtain ⟨found, hfound, h⟩ := bind_eq_ok.mp h
  cases found with
  | some i =>
    cases h
    exact (if_pos (List.mem_of_getElem? (getElem?_of_findPlace hfound))).symm
  | none =>
    cases h
    exact (if_neg (not_mem_of_findPlace hfound)).symm

theorem listener_removeEventListener {this this' : EventSystem} (h : this.removeEventListener el = .ok this') :
    this'.listener = this.listener.erase el := by
  obtain ⟨found, hfound, h⟩ := bind_eq_ok.mp h
  cases found with
  | some i =>
    obtain ⟨listener, hlistener, h⟩ := bind_eq_ok.mp h
    obtain ⟨_, _, h⟩ := bind_eq_ok.mp h
    cases h
    rw [← (eraseAt_eq_ok.mp hlistener).2]
    exact eraseIdx_of_findPlace hfound
  | none =>
    cases h
    exact (List.erase_of_not_mem (not_mem_of_findPlace hfound)).symm

/-! ## Steps -/

/-- Code outside runs where the loop over the listeners does not, or stands still in a call. -/
theorem Outside.behind (hout : s.Outside) {n k : Nat} (hk : Stage.behind n s.stage = some k) :
    ∃ h j, s.stage = .calling h j ∧ k = j + 1 := by
  rcases hout with hstage | ⟨h, j, hstage⟩
  · rw [hstage] at hk
    cases hk
  · rw [hstage] at hk
    exact ⟨h, j, hstage, (Option.some.inj hk).symm⟩

/-- A call that leaves the listeners as they are. -/
theorem Orderly.of_listener (h : Orderly s) {system : EventSystem} (hlistener : system.listener = s.listener)
    {gone : List Addr} (hgone : gone = s.gone) {t : Reentrant} (ht : t = { s with toEventSystem := system, gone }) :
    Orderly t := by
  subst ht hgone
  refine ⟨?_, ?_, h.late, ?_⟩
  · rw [hlistener]
    exact h.nodup
  · rw [hlistener]
    exact h.gone
  · dsimp only
    rw [hlistener]
    exact h.visits

theorem Orderly.register (h : Orderly s) (hout : s.Outside) {g : GameObject κ}
    (hcareful : el ∈ g.findComponents T → el ∉ s.listener) (hnext : s.register T g el = .ok t) : Orderly t := by
  obtain ⟨system, hadd, hnext⟩ := bind_eq_ok.mp hnext
  cases hnext
  have hlistener := listener_addEventListener hadd
  by_cases hmem : el ∈ g.findComponents T
  · rw [if_pos hmem] at hlistener
    have hnew := hcareful hmem
    refine ⟨?_, ?_, h.late, ?_⟩
    · rw [hlistener]
      exact List.nodup_append_comm.mp (List.nodup_cons.mpr ⟨hnew, h.nodup⟩)
    · intro l hl
      simp only [if_pos hmem, List.mem_filter, decide_eq_true_eq] at hl
      rw [hlistener, List.mem_append, not_or, List.mem_singleton]
      exact ⟨h.gone l hl.1, hl.2⟩
    · intro k hk
      obtain ⟨_, j, hstage, rfl⟩ := hout.behind (s := s) hk
      dsimp only
      rw [hlistener]
      exact (h.visits _ (by rw [hstage]; rfl)).append hnew
  · rw [if_neg hmem] at hlistener
    exact h.of_listener hlistener (if_neg hmem) rfl

theorem Orderly.remove (h : Orderly s) (hout : s.Outside)
    (hcareful : ∀ r j, s.stage = .calling r j → el ∈ s.listener.take (j + 1) →
      ∀ l ∈ s.listener.drop (j + 1), l ∈ s.first → l ∈ s.dropped) (hnext : s.remove el = .ok t) : Orderly t := by
  obtain ⟨system, hremove, hnext⟩ := bind_eq_ok.mp hnext
  have hlistener := listener_removeEventListener hremove
  split at hnext
  · cases hnext
    refine ⟨?_, ?_, h.late, ?_⟩
    · rw [hlistener]
      exact h.nodup.erase el
    · intro l hl
      rw [hlistener, h.nodup.mem_erase_iff]
      rintro ⟨hne, hmem⟩
      rcases List.mem_append.mp hl with hl | hl
      · exact h.gone l hl hmem
      · exact hne (List.mem_singleton.mp hl)
    · intro k hk
      obtain ⟨r, j, hstage, rfl⟩ := hout.behind (s := s) hk
      dsimp only
      rw [hlistener]
      exact (h.visits _ (by rw [hstage]; rfl)).erase (hcareful r j hstage)
  · rename_i hmem
    cases hnext
    rw [List.erase_of_not_mem hmem] at hlistener
    exact h.of_listener hlistener rfl rfl

/-- The loop over the listeners begins with none of them behind it. -/
theorem Orderly.begin (h : Orderly s) (r : Handed) : Orderly (s.begin r) := by
  refine ⟨h.nodup, h.gone, h.late, fun k hk => ?_⟩
  cases hk
  exact .start _

/-- A step that leaves the listeners and the record alone and is not in the loop afterwards. -/
theorem Orderly.leave (h : Orderly s) (hlistener : t.listener = s.listener) (hgone : t.gone = s.gone) (hlate : t.late = s.late)
    (hstage : ∀ n, Stage.behind n t.stage = none) : Orderly t :=
  ⟨hlistener ▸ h.nodup, hlistener ▸ hgone ▸ h.gone, hlate ▸ h.late, fun k hk => by rw [hstage] at hk; cases hk⟩

theorem Orderly.proceed (h : Orderly s) (hnext : s.proceed = .ok t) : Orderly t := by
  unfold Reentrant.proceed at hnext
  split at hnext
  · split at hnext
    · cases hnext
      exact h.begin _
    · cases hnext
      exact h.leave rfl rfl rfl fun _ => rfl
  · rename_i r j hstage
    have hvisits := h.visits j (by rw [hstage]; rfl)
    split at hnext
    · rename_i l hl
      obtain ⟨_, _, hnext⟩ := bind_eq_ok.mp hnext
      cases hnext
      refine ⟨h.nodup, h.gone, ?_, fun k hk => ?_⟩
      · have hregistered : l ∉ s.gone := fun hgone => h.gone l hgone (List.mem_of_getElem? hl)
        exact (if_neg hregistered).trans h.late
      · cases hk
        exact hvisits.visit h.nodup hl
    · rename_i hend
      cases hnext
      refine ⟨h.nodup, h.gone, h.late, fun k hk => ?_⟩
      cases hk
      exact hvisits.finish (List.getElem?_eq_none_iff.mp hend)
  · cases hnext
    exact h.leave rfl rfl rfl fun _ => rfl
  · obtain ⟨e, _, hnext⟩ := bind_eq_ok.mp hnext
    obtain ⟨event, _, hnext⟩ := bind_eq_ok.mp hnext
    obtain ⟨_, _, hnext⟩ := bind_eq_ok.mp hnext
    cases hnext
    exact h.leave rfl rfl rfl fun _ => rfl
  · cases hnext
    exact h
  · cases hnext
    exact h

theorem Orderly.returned (h : Orderly s) {consumed : Bool} (hnext : s.returned consumed = .ok t) : Orderly t := by
  unfold Reentrant.returned at hnext
  split at hnext
  · rename_i r j hstage
    have hvisits := h.visits (j + 1) (by rw [hstage]; rfl)
    obtain ⟨stop, _, hnext⟩ := bind_eq_ok.mp hnext
    split at hnext
    · cases hnext
      refine ⟨h.nodup, h.gone, h.late, fun k hk => ?_⟩
      cases hk
      exact hvisits
    · obtain ⟨_, _, hnext⟩ := bind_eq_ok.mp hnext
      cases hnext
      refine ⟨h.nodup, h.gone, h.late, fun k hk => ?_⟩
      cases hk
      exact hvisits
  · cases hnext
    exact h

/-- A careful step keeps the dispatch orderly. -/
theorem Orderly.step (h : Orderly s) (hen : s.enabled a) (hcareful : s.Careful T a) (hnext : s.next T a = .ok t) :
    Orderly t := by
  cases a with
  | addEventListener gameobject el => exact h.register hen hcareful hnext
  | removeEventListener el => exact h.remove hen hcareful hnext
  | addInstantTrigger e =>
    cases hnext
    exact h.begin _
  | addUpdateTrigger e =>
    cases hnext
    exact ⟨h.nodup, h.gone, h.late, h.visits⟩
  | writeUsable e usable =>
    cases hnext
    exact ⟨h.nodup, h.gone, h.late, h.visits⟩
  | update =>
    cases hnext
    exact h.leave rfl rfl rfl fun _ => rfl
  | proceed => exact h.proceed hnext
  | onEvent consumed => exact h.returned hnext

/-! ## Runs -/

theorem Orderly.fair (h : Orderly s) : Fair s := by
  refine ⟨fun r stop hstage l hl hstays => ?_, h.late⟩
  cases stop with
  | none => exact .inl ((h.visits _ (by rw [hstage]; rfl)).once hl hstays)
  | some j =>
    have hvisits := h.visits (j + 1) (by rw [hstage]; rfl)
    have hmem := hvisits.stays l hl hstays
    rw [← List.take_append_drop (j + 1) s.listener] at hmem
    rcases List.mem_append.mp hmem with hpassed | hahead
    · exact .inl (hvisits.passed l hl hstays hpassed)
    · exact .inr ⟨hvisits.ahead l hl hstays hahead, j, rfl, hahead⟩

/-- In a run of careful steps on an event system that begins without listeners, every dispatch is fair, whatever the listeners
register, remove and consume. -/
theorem fair_of_careful {events : Addr → Option Event} {steps : List (ReentrantStep κ)}
    (hrun : Run ((machine T).when (Careful T)) { events } steps s) : Fair s := by
  have horderly : Orderly s := by
    refine hrun.invariant (fun _ s => Orderly s)
      ⟨List.nodup_nil, fun _ hl => absurd hl List.not_mem_nil, rfl, fun _ hk => by cases hk⟩ ?_
    rintro _ s a t h ⟨⟨hen, hcareful⟩, hnext⟩
    exact h.step hen hcareful hnext
  exact horderly.fair

section Instances

instance (stage : Stage) : Decidable (∃ h j, stage = .calling h j) :=
  match stage with
  | .calling h j => isTrue ⟨h, j, rfl⟩
  | .idle | .atEntry _ | .asking _ _ | .served _ _ => isFalse nofun

instance (stage : Stage) (p : Nat → Prop) [DecidablePred p] : Decidable (∀ h j, stage = .calling h j → p j) :=
  match stage with
  | .calling h j => decidable_of_iff (p j) ⟨fun hp _ _ heq => (Stage.calling.inj heq).2 ▸ hp, fun hall => hall h j rfl⟩
  | .idle | .atEntry _ | .asking _ _ | .served _ _ => isTrue nofun

instance (s : Reentrant) : Decidable s.Outside := inferInstanceAs (Decidable (s.stage = .idle ∨ ∃ h j, s.stage = .calling h j))

instance (s : Reentrant) (e : Addr) : Decidable (∃ event, s.events e = some event) :=
  decidable_of_iff _ Option.isSome_iff_exists

instance (s : Reentrant) (a : ReentrantStep κ) : Decidable (s.enabled a) :=
  match a with
  | .addEventListener _ _ | .removeEventListener _ => inferInstanceAs (Decidable s.Outside)
  | .addUpdateTrigger e | .writeUsable e _ => inferInstanceAs (Decidable (s.Outside ∧ ∃ event, s.events e = some event))
  | .addInstantTrigger e => inferInstanceAs (Decidable (s.stage = .idle ∧ ∃ event, s.events e = some event))
  | .update => inferInstanceAs (Decidable (s.stage = .idle))
  | .proceed => inferInstanceAs (Decidable ¬s.Outside)
  | .onEvent _ => inferInstanceAs (Decidable (∃ h j, s.stage = .calling h j))

instance (s : Reentrant) (a : ReentrantStep κ) : Decidable (s.Careful T a) :=
  match a with
  | .addEventListener gameobject el => inferInstanceAs (Decidable (el ∈ gameobject.findComponents T → el ∉ s.listener))
  | .removeEventListener el => inferInstanceAs (Decidable (∀ h j, s.stage = .calling h j →
    el ∈ s.listener.take (j + 1) → ∀ l ∈ s.listener.drop (j + 1), l ∈ s.first → l ∈ s.dropped))
  | .addInstantTrigger _ | .addUpdateTrigger _ | .writeUsable _ _ | .update | .proceed | .onEvent _ =>
    inferInstanceAs (Decidable True)

instance (s : Reentrant) (a : ReentrantStep κ) : Decidable (((machine T).when (Careful T)).enabled s a) :=
  inferInstanceAs (Decidable (s.enabled a ∧ s.Careful T a))

instance (s : Reentrant) (a : ReentrantStep κ) : Decidable ((machine T).enabled s a) :=
  inferInstanceAs (Decidable (s.enabled a))

end Instances

/-- An object with two listeners. -/
def twoListeners : GameObject SceenViewer.Data where
  isActiv := true
  componenten := [⟨1, true, .dragMover {}⟩, ⟨2, true, .buttonChecker {}⟩]

/-- Both are registered and an event is handed to the first of them. -/
def handedOut : List (ReentrantStep SceenViewer.Data) :=
  [.addEventListener twoListeners 1, .addEventListener twoListeners 2, .addInstantTrigger 0, .proceed]

/-- The first listener removes the second one, and the event system calls nobody else. -/
theorem fair_remove_behind : ∃ s,
    Run (machine SceenViewer.Class.eventListener) { events := fun _ => some ⟨true, false⟩ }
      (handedOut ++ [.removeEventListener 2, .onEvent false, .proceed]) s ∧ s.called = [1] ∧ s.Fair := by
  have hrun : ∃ s ∈ exec ((machine SceenViewer.Class.eventListener).when (Careful SceenViewer.Class.eventListener))
      { events := fun _ => some ⟨true, false⟩ } (handedOut ++ [.removeEventListener 2, .onEvent false, .proceed]),
      s.called = [1] := by decide +kernel
  obtain ⟨s, hs, hcalled⟩ := hrun
  have hwhen := Run.of_exec hs
  exact ⟨s, hwhen.of_when, hcalled, fair_of_careful hwhen⟩

/-- The first listener removes itself. The second one stays registered, nothing is consumed, and it is never called. -/
theorem listener_skipped : ∃ s,
    Run (machine SceenViewer.Class.eventListener) { events := fun _ => some ⟨true, false⟩ }
      (handedOut ++ [.removeEventListener 1, .onEvent false, .proceed]) s ∧ ¬s.Fair := by
  have hrun : ∃ s ∈ exec (machine SceenViewer.Class.eventListener) { events := fun _ => some ⟨true, false⟩ }
      (handedOut ++ [.removeEventListener 1, .onEvent false, .proceed]),
      s.stage = .served (.instant 0) none ∧ s.first = [1, 2] ∧ s.dropped = [1] ∧ s.called = [1] := by decide +kernel
  obtain ⟨s, hs, hstage, hfirst, hdropped, hcalled⟩ := hrun
  refine ⟨s, Run.of_exec hs, fun hfair => ?_⟩
  rcases hfair.once _ _ hstage 2 (by rw [hfirst]; decide) (by rw [hdropped]; decide) with hcount | ⟨_, _, hstop, _⟩
  · rw [hcalled] at hcount
    cases hcount
  · cases hstop

end Reentrant

end Events
