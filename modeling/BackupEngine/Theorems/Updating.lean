import BackupEngine.EventSystem.Updating
import BackupEngine.Lemmas.Dispatch

/-!
# Events that update deletes

An event whose `destroy` is set belongs to the event system once it is queued. As long as no such event is queued a second
time before the update that deletes it has ended, no event is handed out, read or deleted after that; the other events may
be queued as often as one likes. Nothing keeps an event from being queued twice, and the second entry then points to a
deleted event.
-/

namespace Events

open Cpp Transition

/-- The entry of the queue that is next, or is being served. -/
def Phase.place : Phase → Nat
  | .idle => 0
  | .atEntry i | .asking i _ | .calling i _ | .served i => i

/-- An entry that is being served is one of the queue. -/
def Phase.Within (n : Nat) : Phase → Prop
  | .idle | .atEntry _ => True
  | .asking i _ | .calling i _ | .served i => i < n

theorem Phase.Within.mono {p : Phase} {n m : Nat} (h : p.Within n) (hle : n ≤ m) : p.Within m := by
  cases p with
  | idle | atEntry => trivial
  | asking | calling | served => exact Nat.lt_of_lt_of_le h hle

namespace Updating

variable {s t : Updating} {a : UpdateStep} {e : Addr} {event : Event} {i : Nat}

/-- No step that can happen hands out, reads or deletes an event that has been deleted. -/
def Intact (s : Updating) : Prop := ∀ a, s.enabled a → s.next a ≠ .error .badAccess

/-- An event that is to be deleted is queued once at most. -/
def QueuedOnce (s : Updating) : UpdateStep → Prop
  | .addUpdateTrigger e => ∀ event, s.events e = some event → event.destroy = true → e ∉ s.onNextUpdate
  | _ => True

theorem entry_eq_ok : s.entry i = .ok (e, event) ↔ s.onNextUpdate[i]? = some e ∧ s.events e = some event := by
  unfold entry
  rw [bind_eq_ok]
  constructor
  · rintro ⟨e', he, h⟩
    split at h
    · rename_i event' hevent
      cases h
      exact ⟨elemAt_eq_ok.mp he, hevent⟩
    · cases h
  · rintro ⟨he, hevent⟩
    exact ⟨e, elemAt_eq_ok.mpr he, by simp only [hevent]; rfl⟩

/-! ## What the queue points to -/

/-- The entries from the next one on point to events that exist, and an event that is to be deleted has one entry only. -/
structure Fresh (s : Updating) : Prop where
  within : s.phase.Within s.onNextUpdate.length
  ahead : ∀ m e, s.phase.place ≤ m → s.onNextUpdate[m]? = some e →
    ∃ event, s.events e = some event ∧ (event.destroy = true → ∀ m', s.onNextUpdate[m']? = some e → m' = m)

/-- A queue between two updates that is empty. -/
theorem Fresh.start (listener : List Addr) (events : Addr → Option Event) : Fresh { listener, events } :=
  ⟨trivial, fun _ _ _ hm => by simp at hm⟩

/-- The entry that is being served points to an event. -/
theorem Fresh.entry (h : Fresh s) (hplace : s.phase.place = i) (hi : i < s.onNextUpdate.length) :
    ∃ e event, s.entry i = .ok (e, event) ∧ s.onNextUpdate[i]? = some e := by
  have he := List.getElem?_eq_getElem hi
  obtain ⟨event, hevent, _⟩ := h.ahead i _ (Nat.le_of_eq hplace) he
  exact ⟨_, event, entry_eq_ok.mpr ⟨he, hevent⟩, he⟩

/-- The phase moves on among the entries that are left. -/
theorem Fresh.move (h : Fresh s) {phase : Phase} (hplace : s.phase.place ≤ phase.place)
    (hwithin : phase.Within s.onNextUpdate.length) : Fresh { s with phase } :=
  ⟨hwithin, fun m e hm => h.ahead m e (Nat.le_trans hplace hm)⟩

theorem Fresh.addUpdateTrigger (h : Fresh s) (hevent : s.events e = some event)
    (honce : event.destroy = true → e ∉ s.onNextUpdate) : Fresh { s with onNextUpdate := s.onNextUpdate ++ [e] } := by
  refine ⟨h.within.mono (by rw [List.length_append]; omega), fun m e' hm he' => ?_⟩
  simp only [List.getElem?_append] at he' ⊢
  split at he'
  · -- An entry that was there: the new one is another event, if this one is to be deleted.
    obtain ⟨event', hevent', huniq⟩ := h.ahead m e' hm he'
    refine ⟨event', hevent', fun hdestroy m' hm' => ?_⟩
    split at hm'
    · exact huniq hdestroy m' hm'
    · obtain ⟨_, rfl⟩ := List.getElem?_eq_some_iff.mp hm'
      simp only [List.getElem_singleton] at he' hevent'
      cases hevent.symm.trans hevent'
      exact absurd (List.mem_of_getElem? he') (honce hdestroy)
  · obtain ⟨hlt, rfl⟩ := List.getElem?_eq_some_iff.mp he'
    simp only [List.length_singleton, List.getElem_singleton] at hlt ⊢
    refine ⟨event, hevent, fun hdestroy m' hm' => ?_⟩
    split at hm'
    · exact absurd (List.mem_of_getElem? hm') (honce hdestroy)
    · obtain ⟨hlt', _⟩ := List.getElem?_eq_some_iff.mp hm'
      simp only [List.length_singleton] at hlt'
      omega

/-- The event at the place that has been served is deleted, if it says so. -/
theorem Fresh.discard (h : Fresh s) (hphase : s.phase = .served i) (he : s.onNextUpdate[i]? = some e)
    (hevent : s.events e = some event) :
    Fresh { s with
      events := if event.destroy then Function.update s.events e none else s.events
      phase := .atEntry (i + 1) } := by
  refine ⟨trivial, fun m e' hm he' => ?_⟩
  simp only [Phase.place] at hm he'
  obtain ⟨event', hevent', huniq'⟩ := h.ahead m e' (by rw [hphase, Phase.place]; omega) he'
  refine ⟨event', ?_, huniq'⟩
  split
  · rename_i hdestroy
    obtain ⟨event'', hevent'', huniq⟩ := h.ahead i e (by rw [hphase, Phase.place]) he
    cases hevent.symm.trans hevent''
    have hne : e' ≠ e := by
      rintro rfl
      have := huniq hdestroy m he'
      omega
    simp only [Function.update_of_ne hne, hevent']
  · exact hevent'

/-- A step under the condition. -/
theorem Fresh.step (h : Fresh s) (hstep : machine.Step s a t) (hgood : s.QueuedOnce a) : Fresh t := by
  obtain ⟨hen, hnext⟩ := hstep
  cases a with
  | addUpdateTrigger e =>
    cases hnext
    obtain ⟨_, event, hevent⟩ := hen
    exact h.addUpdateTrigger hevent (hgood event hevent)
  | writeUsable e usable =>
    cases hnext
    refine ⟨h.within, fun m e' hm he' => ?_⟩
    obtain ⟨event, hevent, huniq⟩ := h.ahead m e' hm he'
    by_cases hee : e' = e
    · subst hee
      exact ⟨{ event with usable }, by simp only [Function.update_self, hevent, Option.map_some], huniq⟩
    · exact ⟨event, by simp only [Function.update_of_ne hee, hevent], huniq⟩
  | update =>
    cases hnext
    exact h.move (by rw [show s.phase = .idle from hen]; exact Nat.le_refl 0) trivial
  | proceed =>
    change s.proceed = .ok t at hnext
    have hwithin := h.within
    unfold proceed at hnext
    split at hnext
    · rename_i i hphase
      split at hnext
      · rename_i hi
        cases hnext
        exact h.move (by rw [hphase]; exact Nat.le_refl i) hi
      · cases hnext
        exact ⟨trivial, fun m e _ hm => by simp at hm⟩
    · rename_i i j hphase
      rw [hphase] at hwithin
      split at hnext
      · obtain ⟨_, _, hr⟩ := bind_eq_ok.mp hnext
        cases hr
        exact h.move (by rw [hphase]; exact Nat.le_refl i) hwithin
      · cases hnext
        exact h.move (by rw [hphase]; exact Nat.le_refl i) hwithin
    · rename_i i hphase
      obtain ⟨⟨e, event⟩, hentry, hr⟩ := bind_eq_ok.mp hnext
      obtain ⟨_, _, hr⟩ := bind_eq_ok.mp hr
      cases hr
      obtain ⟨he, hevent⟩ := entry_eq_ok.mp hentry
      exact h.discard hphase he hevent
    · cases hnext
      exact h
    · cases hnext
      exact h
  | onEvent consumed =>
    obtain ⟨i, j, hphase⟩ := hen
    have hwithin := h.within
    rw [hphase] at hwithin
    change s.returned consumed = .ok t at hnext
    simp only [returned, hphase] at hnext
    obtain ⟨stop, _, hr⟩ := bind_eq_ok.mp hnext
    split at hr
    · cases hr
      exact h.move (by rw [hphase]; exact Nat.le_refl i) hwithin
    · obtain ⟨_, _, hr⟩ := bind_eq_ok.mp hr
      cases hr
      exact h.move (by rw [hphase]; exact Nat.le_refl i) hwithin

/-- Counting on does not touch an event. -/
theorem int_bind_ne_badAccess {α : Type} {n : Int} {f : Int → Comp α} (hf : ∀ m, f m ≠ .error .badAccess) :
    (int n >>= f) ≠ .error .badAccess := by
  unfold int
  split
  · exact hf n
  · exact nofun

/-- Where the entries that are left point to events, no step touches a deleted one. -/
theorem Fresh.intact (h : Fresh s) : s.Intact := by
  intro a hen
  have hwithin := h.within
  cases a with
  | addUpdateTrigger e => exact nofun
  | writeUsable e usable => exact nofun
  | update => exact nofun
  | proceed =>
    change s.proceed ≠ _
    unfold proceed
    split
    · split <;> exact nofun
    · rename_i i j hphase
      rw [hphase] at hwithin
      obtain ⟨e, event, hentry, _⟩ := h.entry (by rw [hphase, Phase.place]) hwithin
      split
      · rw [hentry]
        exact nofun
      · exact nofun
    · rename_i i hphase
      rw [hphase] at hwithin
      obtain ⟨e, event, hentry, _⟩ := h.entry (by rw [hphase, Phase.place]) hwithin
      rw [hentry, ok_bind]
      exact int_bind_ne_badAccess fun _ => nofun
    · exact nofun
    · exact nofun
  | onEvent consumed =>
    obtain ⟨i, j, hphase⟩ := hen
    rw [hphase] at hwithin
    obtain ⟨e, event, hentry, _⟩ := h.entry (by rw [hphase, Phase.place]) hwithin
    have hstop : ∃ stop, andAlso consumed (do return (← s.entry i).2.usable) = .ok stop := by
      rw [hentry]
      cases consumed with
      | false => exact ⟨_, rfl⟩
      | true => exact ⟨_, rfl⟩
    obtain ⟨stop, hstop⟩ := hstop
    change s.returned consumed ≠ _
    simp only [returned, hphase]
    rw [hstop, ok_bind]
    split
    · exact nofun
    · exact int_bind_ne_badAccess fun _ => nofun

/-- In a run that queues each event that is to be deleted once at most before the end of the update that deletes it, no
event is handed out, read or deleted after it has been deleted. -/
theorem events_intact {listener : List Addr} {events : Addr → Option Event} {as : List UpdateStep}
    (h : Run (machine.when QueuedOnce) { listener, events } as s) : s.Intact := by
  have hfresh : Fresh s := by
    refine h.invariant (fun _ s => Fresh s) (.start listener events) fun _ t a u ht hstep => ?_
    exact ht.step ⟨hstep.1.1, hstep.2⟩ hstep.1.2
  exact hfresh.intact

section

instance (s : Updating) : Decidable s.Outside :=
  decidable_of_iff ((match s.phase with | .idle | .calling _ _ => true | _ => false) = true) (by
    unfold Outside
    cases s.phase <;> simp)

instance (s : Updating) (e : Addr) : Decidable (∃ event, s.events e = some event) :=
  decidable_of_iff ((s.events e).isSome) Option.isSome_iff_exists

instance (s : Updating) : Decidable (∃ i j, s.phase = .calling i j) :=
  decidable_of_iff ((match s.phase with | .calling _ _ => true | _ => false) = true) (by cases s.phase <;> simp)

instance (s : Updating) (a : UpdateStep) : Decidable (s.enabled a) :=
  match a with
  | .addUpdateTrigger e | .writeUsable e _ => inferInstanceAs (Decidable (s.Outside ∧ ∃ event, s.events e = some event))
  | .update => inferInstanceAs (Decidable (s.phase = .idle))
  | .proceed => inferInstanceAs (Decidable ¬s.Outside)
  | .onEvent _ => inferInstanceAs (Decidable (∃ i j, s.phase = .calling i j))

instance (s : Updating) (a : UpdateStep) : Decidable (s.QueuedOnce a) :=
  match a with
  | .addUpdateTrigger e =>
    decidable_of_iff (∀ event ∈ s.events e, event.destroy = true → e ∉ s.onNextUpdate) (by simp [QueuedOnce])
  | .writeUsable _ _ | .update | .proceed | .onEvent _ => inferInstanceAs (Decidable True)

instance (s : Updating) (a : UpdateStep) : Decidable ((machine.when QueuedOnce).enabled s a) :=
  inferInstanceAs (Decidable (s.enabled a ∧ s.QueuedOnce a))

instance (s : Updating) (a : UpdateStep) : Decidable (machine.enabled s a) := inferInstanceAs (Decidable (s.enabled a))

/-- The event 0 is to be deleted, the event 1 is not. -/
def twoKinds : Addr → Option Event := fun e =>
  if e = 0 then some ⟨true, true⟩ else if e = 1 then some ⟨true, false⟩ else none

/-- The event 1 is queued, then the event 0 and the event 1 again; and an update hands them to one listener. -/
theorem events_intact_twice :
    ∃ s as, Run (machine.when QueuedOnce) { listener := [7], events := twoKinds }
      ([.addUpdateTrigger 1, .addUpdateTrigger 0, .addUpdateTrigger 1, .update] ++ as) s ∧ s.phase = .idle ∧
        s.events 0 = none ∧ s.Intact := by
  obtain ⟨s, hs, hphase, hdeleted⟩ : ∃ s ∈ exec (machine.when QueuedOnce) { listener := [7], events := twoKinds }
      ([.addUpdateTrigger 1, .addUpdateTrigger 0, .addUpdateTrigger 1, .update] ++
        [.proceed, .proceed, .onEvent false, .proceed, .proceed, .proceed, .proceed, .onEvent true, .proceed,
          .proceed, .proceed, .onEvent false, .proceed, .proceed, .proceed]),
      s.phase = .idle ∧ s.events 0 = none := by decide +kernel
  have hrun := Run.of_exec hs
  exact ⟨s, _, hrun, hphase, hdeleted, events_intact hrun⟩

/-- The event 0 is queued twice: the update deletes it at the first entry, and hands it to the listener at the second. -/
theorem deleted_event_handed :
    ∃ s as, Run machine { listener := [7], events := twoKinds }
      ([.addUpdateTrigger 0, .addUpdateTrigger 0, .update] ++ as) s ∧ s.events 0 = none ∧ s.phase = .asking 1 0 ∧
        s.onNextUpdate[1]? = some 0 ∧ ¬s.Intact := by
  obtain ⟨s, hs, hphase, hdeleted, hentry, hnext⟩ :
      ∃ s ∈ exec machine { listener := [7], events := twoKinds } ([.addUpdateTrigger 0, .addUpdateTrigger 0, .update] ++
        [.proceed, .proceed, .onEvent false, .proceed, .proceed, .proceed]),
      s.phase = .asking 1 0 ∧ s.events 0 = none ∧ s.onNextUpdate[1]? = some 0 ∧
        (match s.next .proceed with | .error f => f == .badAccess | .ok _ => false) = true := by decide +kernel
  refine ⟨s, _, Run.of_exec hs, hdeleted, hphase, hentry, fun h => ?_⟩
  have hen : s.enabled .proceed := by
    rintro (hidle | ⟨i, j, hcalling⟩)
    · rw [hphase] at hidle
      cases hidle
    · rw [hphase] at hcalling
      cases hcalling
  have hbad := h .proceed hen
  cases hcase : s.next .proceed with
  | error f =>
    rw [hcase] at hnext hbad
    exact hbad (congrArg _ (eq_of_beq hnext))
  | ok =>
    rw [hcase] at hnext
    cases hnext

end

end Updating

/-! ## The update of a dispatcher

With listeners that leave the events alone and queue only events that exist, `Dispatcher.update` takes the steps of the
machine. -/

namespace Dispatcher

open Updating

variable {σ : Type} {onEvent : OnEvent σ} {s t : Dispatcher σ} {e l : Addr} {i j : Nat}

/-- The event system at a point of its update. -/
def during (s : Dispatcher σ) (phase : Phase) : Updating :=
  { listener := s.listener, onNextUpdate := s.onNextUpdate, events := s.events, phase }

/-- The listeners leave the events alone, and queue only events that exist. -/
def Quiet (onEvent : OnEvent σ) : Prop :=
  ∀ l e events world answer, onEvent l e events world = .ok answer →
    answer.events = events ∧ ∀ e ∈ answer.triggered, ∃ event, events e = some event

theorem run_triggered {es : List Addr} (hlive : ∀ e ∈ es, ∃ event, s.events e = some event) :
    Run machine (s.during (.calling i j)) (es.map .addUpdateTrigger)
      ((es.foldl addUpdateTrigger s).during (.calling i j)) := by
  induction es generalizing s with
  | nil => exact .nil
  | cons e es ih =>
    have hstep : machine.Step (s.during (.calling i j)) (.addUpdateTrigger e)
        ((s.addUpdateTrigger e).during (.calling i j)) :=
      ⟨⟨.inr ⟨i, j, rfl⟩, hlive e List.mem_cons_self⟩, rfl⟩
    exact .cons hstep (ih fun e' he' => hlive e' (List.mem_cons_of_mem _ he'))

/-- A call of `onEvent`, up to where it returns. -/
theorem run_call (hquiet : Quiet onEvent) {consumed : Bool} (h : s.call onEvent l e = .ok (consumed, t)) :
    t.events = s.events ∧ ∃ as, Run machine (s.during (.calling i j)) as (t.during (.calling i j)) := by
  obtain ⟨answer, hanswer, hr⟩ := bind_eq_ok.mp h
  cases hr
  obtain ⟨hevents, hlive⟩ := hquiet _ _ _ _ _ hanswer
  generalize hr : ({ s with events := answer.events, world := answer.world, calls := s.calls ++ [(l, e)] } : Dispatcher σ) = r
  have hduring : r.during (.calling i j) = s.during (.calling i j) := by
    rw [← hr]
    simp only [during, hevents]
  have hrun := run_triggered (i := i) (j := j) (s := r) fun e' he' => by
    rw [← hr]
    exact hevents ▸ hlive e' he'
  refine ⟨?_, _, hduring ▸ hrun⟩
  rw [foldl_addUpdateTrigger, ← hr]
  exact hevents

theorem events_of_instantLoop (hquiet : Quiet onEvent) {ls : List Addr} (h : instantLoop onEvent e ls j s = .ok t) :
    t.events = s.events :=
  instantLoop_invariant (P := fun r => r.events = s.events) (fun hr hcall => (run_call (i := 0) (j := 0) hquiet hcall).1.trans hr)
    rfl h

/-- `update` goes on by itself at the heads of its loops and past the inner one. -/
theorem enabled_proceed {phase : Phase} (hidle : phase ≠ .idle) (hcalling : ∀ i j, phase ≠ .calling i j) :
    (s.during phase).enabled .proceed := by
  rintro (h | ⟨i, j, h⟩)
  · exact hidle h
  · exact hcalling i j h

/-- The inner loop from the place `j` on. -/
theorem run_instantLoop (hquiet : Quiet onEvent) {event : Event} (hevent : s.events e = some event)
    (hi : s.onNextUpdate[i]? = some e) {ls : List Addr} (hls : s.listener.drop j = ls)
    (h : instantLoop onEvent e ls j s = .ok t) : ∃ as, Run machine (s.during (.asking i j)) as (t.during (.served i)) := by
  induction ls generalizing s j with
  | nil =>
    cases h
    have hj := List.drop_eq_nil_iff.mp hls
    have hserved : machine.Step (t.during (.asking i j)) .proceed (t.during (.served i)) :=
      ⟨enabled_proceed nofun nofun, if_neg (Nat.not_lt.mpr hj)⟩
    exact ⟨_, .single hserved⟩
  | cons l ls ih =>
    have hj : j < s.listener.length := by
      by_contra hge
      rw [List.drop_eq_nil_of_le (Nat.not_lt.mp hge)] at hls
      cases hls
    have hask : machine.Step (s.during (.asking i j)) .proceed (s.during (.calling i j)) := by
      refine ⟨enabled_proceed nofun nofun, (if_pos hj).trans ?_⟩
      exact bind_eq_ok.mpr ⟨(e, event), entry_eq_ok.mpr ⟨hi, hevent⟩, rfl⟩
    obtain ⟨⟨consumed, r⟩, hcall, h⟩ := bind_eq_ok.mp h
    obtain ⟨hevents, as, hrun⟩ := run_call (i := i) (j := j) hquiet hcall
    obtain ⟨hext, _⟩ := call_spec hcall
    have hir := hext.getElem? hi
    have heventr : r.events e = some event := hevents ▸ hevent
    obtain ⟨stop, hstop, h⟩ := bind_eq_ok.mp h
    -- The flag that `update` reads is the one of the entry it is at.
    have hstop' : andAlso consumed (do return (← (r.during (.calling i j)).entry i).2.usable) = .ok stop := by
      rw [entry_eq_ok.mpr ⟨hir, heventr⟩, ← hstop, usable, deref, heventr]
      rfl
    split at h
    · rename_i hbreak
      cases h
      have hend : machine.Step (t.during (.calling i j)) (.onEvent consumed) (t.during (.served i)) :=
        ⟨⟨i, j, rfl⟩, bind_eq_ok.mpr ⟨stop, hstop', if_pos hbreak⟩⟩
      exact ⟨_, .cons hask (hrun.snoc hend)⟩
    · rename_i hgo
      obtain ⟨n, hn, h⟩ := bind_eq_ok.mp h
      have hlsr : r.listener.drop (j + 1) = ls := by
        rw [hext.listener, ← List.drop_drop, hls, List.drop_one, List.tail_cons]
      obtain ⟨bs, hrest⟩ := ih heventr hir hlsr h
      have hback : machine.Step (r.during (.calling i j)) (.onEvent consumed) (r.during (.asking i (j + 1))) := by
        refine ⟨⟨i, j, rfl⟩, bind_eq_ok.mpr ⟨stop, hstop', (if_neg hgo).trans ?_⟩⟩
        exact bind_eq_ok.mpr ⟨n, hn, rfl⟩
      exact ⟨_, .cons hask (hrun.append (.cons hback hrest))⟩

/-- The outer loop from the place `i` on. -/
theorem run_queueLoop (hquiet : Quiet onEvent) {fuel : Nat} (h : queueLoop onEvent fuel i s = .ok (some t)) :
    ∃ as, Run machine (s.during (.atEntry i)) as ({ t with onNextUpdate := [] }.during .idle) := by
  induction fuel generalizing s i with
  | zero => cases h
  | succ fuel ih =>
    rw [queueLoop] at h
    split at h
    · rename_i hi
      have hhead : machine.Step (s.during (.atEntry i)) .proceed (s.during (.asking i 0)) :=
        ⟨enabled_proceed (by rintro ⟨⟩) (by rintro _ _ ⟨⟩), if_pos hi⟩
      obtain ⟨r, hloop, h⟩ := bind_eq_ok.mp h
      have he := List.getElem?_eq_getElem hi
      rw [listenerLoop_eq he] at hloop
      have her := (instantLoop_spec hloop).1.getElem? he
      rw [elemAt_eq_ok.mpr her, ok_bind] at h
      obtain ⟨u, hdiscard, h⟩ := bind_eq_ok.mp h
      obtain ⟨n, hn, h⟩ := bind_eq_ok.mp h
      obtain ⟨event, hevent, hdiscard⟩ := bind_eq_ok.mp hdiscard
      have heventr : r.events s.onNextUpdate[i] = some event := by
        unfold deref at hevent
        split at hevent
        · cases hevent
          assumption
        · cases hevent
      obtain ⟨as, hrun⟩ := run_instantLoop hquiet (events_of_instantLoop hquiet hloop ▸ heventr) he List.drop_zero hloop
      obtain ⟨bs, hrest⟩ := ih h
      have hserved : machine.Step (r.during (.served i)) .proceed (u.during (.atEntry (i + 1))) := by
        refine ⟨enabled_proceed (by rintro ⟨⟩) (by rintro _ _ ⟨⟩), bind_eq_ok.mpr ⟨_, entry_eq_ok.mpr ⟨her, heventr⟩, ?_⟩⟩
        refine bind_eq_ok.mpr ⟨n, hn, ?_⟩
        split at hdiscard
        · rename_i hdestroy
          obtain ⟨_, _, hr⟩ := bind_eq_ok.mp hdiscard
          cases hr
          simp only [during, if_pos hdestroy, pure_eq_ok]
        · rename_i hdestroy
          cases hdiscard
          simp only [during, if_neg hdestroy, pure_eq_ok]
      exact ⟨_, .cons hhead (hrun.append (.cons hserved hrest))⟩
    · rename_i hi
      cases h
      have hend : machine.Step (t.during (.atEntry i)) .proceed ({ t with onNextUpdate := [] }.during .idle) :=
        ⟨enabled_proceed (by rintro ⟨⟩) (by rintro _ _ ⟨⟩), if_neg hi⟩
      exact ⟨_, .single hend⟩

/-- An update that returns is a run of the machine. -/
theorem update_run (hquiet : Quiet onEvent) {fuel : Nat} (h : s.update onEvent fuel = .ok (some t)) :
    ∃ as, Run machine (s.during .idle) (.update :: as) (t.during .idle) := by
  obtain ⟨r, hloop, hr⟩ := bind_eq_ok.mp h
  cases r with
  | none => cases hr
  | some u =>
    cases hr
    obtain ⟨as, hrun⟩ := run_queueLoop hquiet hloop
    exact ⟨as, .cons ⟨rfl, rfl⟩ hrun⟩

end Dispatcher

end Events
