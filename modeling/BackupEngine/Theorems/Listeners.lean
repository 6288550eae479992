import BackupEngine.Application.Listeners
import BackupEngine.Lemmas.Dispatch
import BackupEngine.Theorems.Relinking

/-!
# Listeners that are still there

The event system keeps pointers to its listeners, and the storage owns them. Registering, removing and handing out events
keep every such pointer to a component of a stored object. Clearing the storage does so only when no listener is registered,
since no destructor takes a listener out of the event system.
-/

namespace SceenViewer

open Cpp Serializer Events Transition

/-! ## The turns of a program -/

/-- What a call is about is stored, and a call of `update` is one that returns. -/
def Session.enabled (reaction : Reaction) (s : Session) : Turn → Prop
  | .call c => c.Stored s.world.storrageInstance
  | .update fuel => s.update reaction.onEvent fuel ≠ .ok none
  | .clear | .writeEvent _ _ | .addUpdateTrigger _ | .addInstantTrigger _ => True

/-- The turns of a program, in any order. -/
def turns (deletes : Class → Bool) (reaction : Reaction) : Machine Fault Session Turn where
  enabled := Session.enabled reaction
  next := Session.perform deletes reaction

namespace Session

variable {deletes : Class → Bool} {reaction : Reaction} {s t : Session} {l e : Addr}

/-- Every pointer to a listener refers to a component of a stored object. -/
def Attended (s : Session) : Prop := ∀ l ∈ s.listener, Refers s.world.storrageInstance l

/-- No event can be handed to a deleted listener: to leave out the test whether it is there changes nothing. -/
structure Unharmed (reaction : Reaction) (s : Session) : Prop where
  instant : ∀ e, s.addInstantTrigger reaction.onEvent e = s.addInstantTrigger reaction.run e
  update : ∀ fuel, s.update reaction.onEvent fuel = s.update reaction.run fuel

/-- What every call keeps: the scene and the event system fit together. -/
abbrev Fitting (s : Session) : Prop := Sound s.world.storrageInstance s.toEventSystem

theorem refers_iff {st : ObjectStorrage Data} : Refers st l ↔ ∃ k, st.Holds Class.eventListener ⟨k, l⟩ := by
  constructor
  · rintro ⟨⟨k, g⟩, hmem, hl⟩
    exact ⟨k, g, ObjectStorrage.mem_toList.mp hmem, hl⟩
  · rintro ⟨k, g, hg, hl⟩
    exact ⟨(k, g), ObjectStorrage.mem_toList.mpr hg, hl⟩

/-- The pair beside a pointer leads to the component. -/
theorem Fitting.attended (h : s.Fitting) : s.Attended := by
  intro l hl
  obtain ⟨i, hi⟩ := List.mem_iff_getElem?.mp hl
  obtain ⟨p, _, g, hg, hplace⟩ := Engine.forall₂_getElem? h.listener hi
  exact refers_iff.mpr ⟨p.1, g, hg, List.mem_of_getElem? hplace⟩

/-! ## What handing out events keeps -/

theorem sound_write {scene scene' : Scene} {events : EventSystem} {writes : List (Pointer × Data)}
    (h : Sound scene.storrageInstance events) (hwrite : scene.write writes = .ok scene') :
    Sound scene'.storrageInstance events := by
  refine foldlM_invariant (fun scene => Sound scene.storrageInstance events) (fun s p t hs ht => ?_) h hwrite
  obtain ⟨st, hst, hr⟩ := Cpp.bind_eq_ok.mp ht
  cases hr
  exact hs.update (fun _ _ _ hd => assign_keeps hd) hst

/-- A call of `onEvent` of a stored listener. -/
theorem onEvent_eq (hl : Refers s.world.storrageInstance l) :
    s.call reaction.onEvent l e = s.call reaction.run l e := by
  rw [Dispatcher.call, Dispatcher.call, Reaction.onEvent, if_pos hl]

theorem Fitting.call {consumed : Bool} (h : s.Fitting) (hcall : s.call reaction.onEvent l e = .ok (consumed, t)) :
    t.Fitting := by
  obtain ⟨answer, hanswer, hr⟩ := Cpp.bind_eq_ok.mp hcall
  cases hr
  unfold Reaction.onEvent at hanswer
  split at hanswer
  · obtain ⟨world, hworld, hr⟩ := Cpp.bind_eq_ok.mp hanswer
    cases hr
    rw [Dispatcher.foldl_addUpdateTrigger]
    exact sound_write h hworld
  · cases hanswer

theorem Fitting.discard (h : s.Fitting) (hdiscard : s.discard e = .ok t) : t.Fitting := by
  obtain ⟨event, _, hdiscard⟩ := Cpp.bind_eq_ok.mp hdiscard
  split at hdiscard
  · obtain ⟨_, _, hr⟩ := Cpp.bind_eq_ok.mp hdiscard
    cases hr
    exact h
  · cases hdiscard
    exact h

/-- As long as scene and event system fit together, the listeners that are called are there. -/
theorem Fitting.unharmed (h : s.Fitting) : s.Unharmed reaction where
  instant := fun e => Dispatcher.instantLoop_congr Fitting.call (fun _ hs hl => onEvent_eq (hs.attended _ hl)) (fun _ => id) h
  update := fun fuel => by
    rw [Dispatcher.update, Dispatcher.update, Dispatcher.queueLoop_congr Fitting.call
      (fun _ hs hl => onEvent_eq (hs.attended _ hl)) Fitting.discard h]

/-! ## What a turn keeps -/

/-- The storage may be cleared when no listener is registered. -/
def KeepsListeners (s : Session) : Turn → Prop
  | .clear => s.listener = []
  | _ => True

/-- A turn keeps scene and event system fitting together, unless it clears the storage under a listener. -/
theorem Fitting.step {a : Turn} (h : s.Fitting) (hstep : (turns deletes reaction).Step s a t) (hkeeps : s.KeepsListeners a) :
    t.Fitting := by
  obtain ⟨hen, hnext⟩ := hstep
  cases a with
  | call c =>
    obtain ⟨r, hr, ht⟩ := Cpp.bind_eq_ok.mp hnext
    cases ht
    exact Sound.step (s := s.singletons) (t := r) h ⟨hen, hr⟩
  | clear =>
    obtain ⟨st, hclear, hr⟩ := Cpp.bind_eq_ok.mp hnext
    cases hr
    obtain rfl := (ObjectStorrage.clear_eq_ok.mp hclear).2
    have hlistener := h.listener
    rw [hkeeps] at hlistener
    refine { Sound.empty with listener := ?_ }
    change List.Forall₂ _ s.listener s.listenerIDs
    rw [hkeeps, List.forall₂_nil_left_iff.mp hlistener]
    exact .nil
  | writeEvent e event =>
    cases hnext
    exact h
  | addUpdateTrigger e =>
    cases hnext
    exact h
  | addInstantTrigger e => exact Dispatcher.instantLoop_invariant Fitting.call h hnext
  | update fuel =>
    obtain ⟨r, hr, ht⟩ := Cpp.bind_eq_ok.mp hnext
    cases ht
    obtain ⟨q, hq, hr⟩ := Cpp.bind_eq_ok.mp hr
    cases hr
    cases q with
    | none => exact h
    | some u =>
      obtain ⟨es, hes, _⟩ := Dispatcher.queueLoop_serves hq
      have hu : Fitting u := hes.invariant Fitting.call Fitting.discard h
      exact hu

/-- Clearing leaves a registered listener without its component. -/
theorem not_attended_clear (hl : l ∈ s.listener) (hstep : (turns deletes reaction).Step s .clear t) : ¬t.Attended := by
  obtain ⟨st, hclear, hr⟩ := Cpp.bind_eq_ok.mp hstep.2
  cases hr
  obtain rfl := (ObjectStorrage.clear_eq_ok.mp hclear).2
  intro h
  obtain ⟨k, g, hg, _⟩ := refers_iff.mp (h l hl)
  simp [ObjectStorrage.getById] at hg

end Session

/-! ## Every run -/

open Session

/-- In every state of a run the pointers to listeners refer to components of stored objects, and no event can be handed to a
deleted one, exactly when each clearing of the storage in the run finds no listener registered. -/
theorem listeners_attended_iff {deletes : Class → Bool} {reaction : Reaction} {w : World} {as : List Turn} {s : Session}
    (h : Run (turns deletes reaction) (start w) as s) :
    (∀ bs t, bs <+: as → Run (turns deletes reaction) (start w) bs t → t.Attended ∧ t.Unharmed reaction) ↔
      Run ((turns deletes reaction).when KeepsListeners) (start w) as s := by
  have h0 : (start w).Fitting := Sound.empty
  refine Run.always_iff_under (I := fun t => t.Attended → t.Fitting) (fun _ => h0) ⟨h0.attended, h0.unharmed⟩ ?_ h
  rintro t a u hI ⟨hattended, _⟩ step
  have ht := hI hattended
  by_cases hkeeps : t.KeepsListeners a
  · have hu := ht.step step hkeeps
    exact ⟨fun _ => hu, iff_of_true ⟨hu.attended, hu.unharmed⟩ hkeeps⟩
  · have hnot : ¬u.Attended := by
      cases a with
      | clear =>
        obtain ⟨l, hl⟩ := List.exists_mem_of_ne_nil _ hkeeps
        exact not_attended_clear hl step
      | _ => exact absurd trivial hkeeps
    exact ⟨fun h => absurd h hnot, iff_of_false (fun h => hnot h.1) hkeeps⟩

section

instance (s : Session) (c : Call) : Decidable (c.Stored s.world.storrageInstance) :=
  inferInstanceAs (Decidable (calls.enabled s.singletons c))

instance {α : Type} (r : Comp (Option α)) : Decidable (r ≠ .ok none) :=
  match r with
  | .ok none => .isFalse fun h => h rfl
  | .ok (some _) => .isTrue nofun
  | .error _ => .isTrue nofun

instance (reaction : Reaction) (s : Session) (a : Turn) : Decidable (s.enabled reaction a) :=
  match a with
  | .call c => inferInstanceAs (Decidable (c.Stored s.world.storrageInstance))
  | .update fuel => inferInstanceAs (Decidable (s.update reaction.onEvent fuel ≠ .ok none))
  | .clear | .writeEvent _ _ | .addUpdateTrigger _ | .addInstantTrigger _ => inferInstanceAs (Decidable True)

instance (s : Session) (a : Turn) : Decidable (s.KeepsListeners a) :=
  match a with
  | .clear => inferInstanceAs (Decidable (s.listener = []))
  | .call _ | .writeEvent _ _ | .addUpdateTrigger _ | .addInstantTrigger _ | .update _ => inferInstanceAs (Decidable True)

instance (deletes : Class → Bool) (reaction : Reaction) (s : Session) (a : Turn) :
    Decidable (((turns deletes reaction).when KeepsListeners).enabled s a) :=
  inferInstanceAs (Decidable (s.enabled reaction a ∧ s.KeepsListeners a))

/-- A listener that lets every event pass. -/
def idle : Reaction := fun _ _ _ => (false, [])

/-- An object with a `DragMover`, and an event that is queued and handed to it. -/
def dragTurns : List Turn :=
  [.call .createGameObject, .call (.addComponent 0 (.engine .transform)), .call (.addComponent 0 .dragMover),
    .writeEvent 0 ⟨true, false⟩, .addUpdateTrigger 0, .update 2]

/-- These turns clear nothing, and leave one listener, which was handed the event and can be deleted. -/
theorem run_dragTurns :
    ∃ s l, Run ((turns Class.beginsWithComponent idle).when KeepsListeners) (start .blank) dragTurns s ∧ s.listener = [l] ∧
      s.world.storrageInstance.Deletable Class.beginsWithComponent ∧ s.calls = [(l, 0)] := by
  have hrun : ∃ s ∈ exec ((turns Class.beginsWithComponent idle).when KeepsListeners) (start .blank) dragTurns,
      s.listener.length = 1 ∧ s.world.storrageInstance.clear Class.beginsWithComponent = .ok {} ∧
        s.calls = s.listener.map (·, 0) := by decide +kernel
  obtain ⟨s, hs, hlen, hclear, hcalls⟩ := hrun
  obtain ⟨l, hl⟩ := List.length_eq_one_iff.mp hlen
  exact ⟨s, l, Run.of_exec hs, hl, (ObjectStorrage.clear_eq_ok.mp hclear).1, by rw [hcalls, hl, List.map_singleton]⟩

/-- The run of these turns. -/
theorem listeners_attended_iff_drag :
    ∃ s l, Run (turns Class.beginsWithComponent idle) (start .blank) dragTurns s ∧ s.calls = [(l, 0)] ∧ s.Attended ∧
      s.Unharmed idle := by
  obtain ⟨s, l, hwhen, _, _, hcalls⟩ := run_dragTurns
  have hrun := hwhen.of_when
  exact ⟨s, l, hrun, hcalls, (listeners_attended_iff hrun).mpr hwhen _ s (List.prefix_refl _) hrun⟩

/-- The storage is cleared next, and the deletes pass. The listener is deleted and still registered, and would be handed the
next event. -/
theorem cleared_listener_called :
    ∃ s t, Run (turns Class.beginsWithComponent idle) (start .blank) (dragTurns ++ [.clear]) s ∧ ¬s.Attended ∧
      ¬s.Unharmed idle ∧ s.addInstantTrigger idle.onEvent 0 = .error .badAccess ∧ s.addInstantTrigger idle.run 0 = .ok t := by
  obtain ⟨s, l, hwhen, hl, hdelete, _⟩ := run_dragTurns
  have hclear := ObjectStorrage.clear_eq_ok.mpr ⟨hdelete, rfl⟩
  have hstep : (turns Class.beginsWithComponent idle).Step s .clear
      { s with world := { s.world with storrageInstance := {} } } := ⟨trivial, Cpp.bind_eq_ok.mpr ⟨_, hclear, rfl⟩⟩
  have hgone : ¬Refers ({} : ObjectStorrage Data) l := fun h => by
    obtain ⟨k, g, hg, _⟩ := refers_iff.mp h
    simp [ObjectStorrage.getById] at hg
  have hbad : Dispatcher.addInstantTrigger idle.onEvent { s with world := { s.world with storrageInstance := {} } } 0 =
      .error .badAccess := by
    rw [Dispatcher.addInstantTrigger, hl, Dispatcher.instantLoop, Dispatcher.call, Reaction.onEvent, if_neg hgone]
    rfl
  have hrun : ∃ t, Dispatcher.addInstantTrigger idle.run { s with world := { s.world with storrageInstance := {} } } 0 =
      .ok t := by
    rw [Dispatcher.addInstantTrigger, hl]
    exact ⟨_, rfl⟩
  obtain ⟨t, ht⟩ := hrun
  refine ⟨_, t, hwhen.of_when.snoc hstep, not_attended_clear (hl ▸ List.mem_singleton_self l) hstep, fun h => ?_, hbad, ht⟩
  have := h.instant 0
  rw [hbad, ht] at this
  cases this

end

end SceenViewer
