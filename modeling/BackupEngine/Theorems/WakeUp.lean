import BackupEngine.Netzwerk.TsQueueThreads

/-!
# Wake-ups of the consumer

`wait` tests the queue under one mutex and blocks under another. A producer that inserts and notifies between the two finds
no one to wake, and the consumer then blocks on a queue that is not empty. While no notification falls into that gap, a
consumer that blocks, or is about to, on a queue that is not empty has a producer in the middle of its push, which is still
to notify.
-/

namespace Netzwerk

open Cpp Transition

variable {α : Type}

/-- The consumer is blocked in `wait`, the queue is not empty, and every producer has finished its push. -/
def LostWakeUp (s : Threads α) : Prop :=
  s.consumer = .blocked ∧ s.deqQueue ≠ [] ∧ ∀ i, s.producers i = .outside

/-- A step that is not a notification between the consumer's test that found the queue empty and its block. -/
def OutsideGap (s : Threads α) (e : ThreadEvent α) : Prop := ∀ i, e = .notify i → s.consumer ≠ .locking

namespace Threads

/-- The consumer is past a test that found the queue empty and was not notified since. -/
def Asleep (s : Threads α) : Prop := s.consumer = .locking ∨ s.consumer = .entering ∨ s.consumer = .blocked

/-- The invariant. The mutexes are held by the threads that are past their locks, and a consumer asleep on a queue that is not
empty has a producer that is still to notify. -/
structure Inv (s : Threads α) : Prop where
  pushing : ∀ i, s.producers i ≠ .outside → s.muxQueue = some (.producer i)
  armed : ∀ i, s.producers i = .armed → s.muxBlocking = some (.producer i)
  entering : s.consumer = .entering → s.muxBlocking = some .consumer
  awaited : s.Asleep → s.deqQueue ≠ [] → ∃ i, s.producers i ≠ .outside

/-- A step of the consumer that keeps the queue: the invariant is kept when the consumer is awake afterwards or was asleep
before, and the mutex for blocking is its own or untouched. -/
theorem Inv.consumer {s : Threads α} (h : s.Inv) (place : WaitPlace) (mux : Option Thread)
    (harmed : ∀ i, s.producers i = .armed → mux = some (.producer i))
    (hentering : place = .entering → mux = some .consumer)
    (hasleep : place = .locking ∨ place = .entering ∨ place = .blocked → s.Asleep ∨ s.deqQueue = []) :
    Inv { s with consumer := place, muxBlocking := mux } where
  pushing := h.pushing
  armed := harmed
  entering := hentering
  awaited := by
    intro hplace hne
    rcases hasleep hplace with hs | hnil
    · exact h.awaited hs hne
    · exact absurd hnil hne

/-- One producer at most is in the middle of its push. -/
theorem Inv.others {s : Threads α} (h : s.Inv) {i j : Nat} (hi : s.producers i ≠ .outside) (hj : j ≠ i) :
    s.producers j = .outside := by
  by_contra hout
  have := (h.pushing j hout).symm.trans (h.pushing i hi)
  cases this
  exact hj rfl

/-- None is while the mutex of the queue is free. -/
theorem Inv.nobody {s : Threads α} (h : s.Inv) (hfree : s.muxQueue = none) (j : Nat) : s.producers j = .outside := by
  by_contra hj
  have := h.pushing j hj
  rw [hfree] at this
  cases this

/-- A step within the push of the one producer that is not outside. -/
theorem Inv.producer {s : Threads α} (h : s.Inv) {i : Nat} (hothers : ∀ j, j ≠ i → s.producers j = .outside) (q : List α)
    (place : PushPlace) (own mux : Option Thread) (hplace : place ≠ .outside) (hown : own = some (.producer i))
    (harmed : place = .armed → mux = some (.producer i)) (hmux : mux = s.muxBlocking ∨ s.muxBlocking = none) :
    Inv { s with deqQueue := q, muxQueue := own, muxBlocking := mux, producers := Function.update s.producers i place } where
  pushing := by
    intro j hj
    by_cases hji : j = i
    · rw [hji, hown]
    · simp only [Function.update_of_ne hji] at hj
      exact absurd (hothers j hji) hj
  armed := by
    intro j hj
    by_cases hji : j = i
    · subst hji
      exact harmed (by simpa using hj)
    · simp only [Function.update_of_ne hji, hothers j hji] at hj
      cases hj
  entering := by
    intro hentering
    have hheld := h.entering hentering
    rcases hmux with rfl | hfree
    · exact hheld
    · rw [hfree] at hheld
      cases hheld
  awaited := fun _ _ => ⟨i, by simpa using hplace⟩

/-- A notification outside the gap. The consumer is not asleep afterwards: it was woken, the mutex kept it from entering, and
the gap is excluded. -/
theorem Inv.notify {s : Threads α} (h : s.Inv) {i : Nat} (hi : s.producers i = .armed) (hgap : s.consumer ≠ .locking) :
    Inv { s with muxQueue := none, muxBlocking := none, consumer := if s.consumer = .blocked then .waking else s.consumer,
                 producers := Function.update s.producers i .outside } := by
  have hother : ∀ j, Function.update s.producers i .outside j = .outside := by
    intro j
    by_cases hji : j = i
    · simp [hji]
    · rw [Function.update_of_ne hji, h.others (by rw [hi]; nofun) hji]
  have hawake : s.consumer ≠ .entering := by
    intro hentering
    have := (h.armed i hi).symm.trans (h.entering hentering)
    cases this
  refine ⟨fun j hj => absurd (hother j) hj, fun j hj => ?_, fun hentering => ?_, fun hs _ => ?_⟩
  · simp only [hother j] at hj
    cases hj
  · simp only at hentering
    split at hentering
    · cases hentering
    · exact absurd hentering hawake
  · unfold Asleep at hs
    simp only at hs
    split at hs
    · simp at hs
    · rename_i hblocked
      exact absurd hs (by simp [hgap, hawake, hblocked])

/-- Every step outside the gap returns and keeps the invariant. -/
theorem Inv.next {s : Threads α} (h : s.Inv) {e : ThreadEvent α} (he : s.enabled e) (hgap : OutsideGap s e) :
    ∃ t, s.next e = .ok t ∧ t.Inv := by
  cases e with
  | wait => exact ⟨_, rfl, h.consumer .testing s.muxBlocking h.armed nofun (by simp)⟩
  | test =>
    refine ⟨_, rfl, h.consumer _ s.muxBlocking h.armed ?_ ?_⟩
    · split <;> nofun
    · split
      · rename_i hempty
        exact fun _ => .inr (by simpa [TsQueue.empty] using hempty)
      · simp
  | lockBlocking =>
    obtain ⟨hplace, hfree⟩ := he
    refine ⟨_, rfl, h.consumer .entering (some .consumer) ?_ (fun _ => rfl) (fun _ => .inl (.inl hplace))⟩
    intro i hi
    have := h.armed i hi
    rw [hfree] at this
    cases this
  | block =>
    refine ⟨_, rfl, h.consumer .blocked none ?_ nofun (fun _ => .inl (.inr (.inl he)))⟩
    intro i hi
    have := (h.armed i hi).symm.trans (h.entering he)
    cases this
  | wakeUp => exact ⟨_, rfl, h.consumer .waking s.muxBlocking h.armed nofun (by simp)⟩
  | relock => exact ⟨_, rfl, h.consumer .testing s.muxBlocking h.armed nofun (by simp)⟩
  | pop =>
    obtain ⟨hplace, _, hne⟩ := he
    obtain ⟨item, q, hq⟩ := List.exists_cons_of_ne_nil hne
    refine ⟨{ s with deqQueue := q }, bind_eq_ok.mpr ⟨_, TsQueue.popFront_eq_ok.mpr hq, rfl⟩, h.pushing, h.armed, h.entering, ?_⟩
    intro hs
    simp [Asleep, hplace] at hs
  | insert i front item =>
    obtain ⟨_, hfree⟩ := he
    exact ⟨_, rfl, h.producer (fun j _ => h.nobody hfree j) _ .inserted _ _ nofun rfl nofun (.inl rfl)⟩
  | arm i =>
    obtain ⟨hi, hfree⟩ := he
    have hmid : s.producers i ≠ .outside := by rw [hi]; nofun
    -- it holds the mutex of the queue since the insertion
    exact ⟨_, rfl, h.producer (fun j hj => h.others hmid hj) _ .armed _ _ nofun (h.pushing i hmid) (fun _ => rfl) (.inr hfree)⟩
  | notify i => exact ⟨_, rfl, h.notify he (hgap i rfl)⟩

end Threads

/-- For every queue, any number of producers and every interleaving in which no notification falls between the consumer's test
that found the queue empty and its block: no wake-up is lost. -/
theorem no_lost_wakeUp (q : List α) (events : List (ThreadEvent α)) (s : Threads α)
    (h : Run (Threads.machine.when OutsideGap) { deqQueue := q } events s) : ¬LostWakeUp s := by
  have h0 : Threads.Inv ({ deqQueue := q } : Threads α) :=
    ⟨fun _ h => absurd rfl h, fun _ => nofun, nofun, by simp [Threads.Asleep]⟩
  have hinv : s.Inv := by
    refine h.invariant (fun _ t => t.Inv) h0 ?_
    rintro _ t e u hI ⟨⟨hen, hgap⟩, hu⟩
    obtain ⟨u', hu', hI'⟩ := hI.next hen hgap
    have : Except.ok u = (Except.ok u' : Comp (Threads α)) := hu.symm.trans hu'
    cases this
    exact hI'
  rintro ⟨hblocked, hne, hall⟩
  obtain ⟨i, hi⟩ := hinv.awaited (.inr (.inr hblocked)) hne
  exact hi (hall i)

/-- A producer that notifies a consumer already blocked. -/
theorem no_lost_wakeUp_blocked : ∃ s : Threads Nat, s.consumer = .waking ∧ s.deqQueue = [5] ∧ ¬LostWakeUp s := by
  have hrun : ∃ s : Threads Nat, s.consumer = .waking ∧ s.deqQueue = [5] ∧
      Run (Threads.machine.when OutsideGap) {}
        [.wait, .test, .lockBlocking, .block, .insert 0 false 5, .arm 0, .notify 0] s := by
    refine ⟨_, ?_, ?_, .cons ⟨⟨rfl, nofun⟩, rfl⟩ (.cons ⟨⟨⟨rfl, rfl⟩, nofun⟩, rfl⟩ (.cons ⟨⟨⟨rfl, rfl⟩, nofun⟩, rfl⟩
      (.cons ⟨⟨rfl, nofun⟩, rfl⟩ (.cons ⟨⟨⟨rfl, rfl⟩, nofun⟩, rfl⟩ (.cons ⟨⟨⟨rfl, rfl⟩, nofun⟩, rfl⟩
        (.cons ⟨⟨rfl, fun _ _ => nofun⟩, rfl⟩ .nil))))))⟩
    all_goals rfl
  obtain ⟨s, hplace, hq, hrun⟩ := hrun
  exact ⟨s, hplace, hq, no_lost_wakeUp [] _ s hrun⟩

/-- A producer that inserts and notifies after the consumer's test and before its block: the wake-up is lost. -/
theorem wakeUp_lost_in_gap : ∃ (events : List (ThreadEvent Nat)) (s : Threads Nat),
    Run Threads.machine {} events s ∧ LostWakeUp s := by
  have hrun : ∃ s : Threads Nat, (s.consumer = .blocked ∧ s.deqQueue = [5] ∧
        s.producers = Function.update (Function.update (Function.update (fun _ => .outside) 0 .inserted) 0 .armed) 0 .outside) ∧
      Run Threads.machine {} [.wait, .test, .insert 0 false 5, .arm 0, .notify 0, .lockBlocking, .block] s := by
    refine ⟨_, ?_, .cons ⟨rfl, rfl⟩ (.cons ⟨⟨rfl, rfl⟩, rfl⟩ (.cons ⟨⟨rfl, rfl⟩, rfl⟩ (.cons ⟨⟨rfl, rfl⟩, rfl⟩
      (.cons ⟨rfl, rfl⟩ (.cons ⟨⟨rfl, rfl⟩, rfl⟩ (.cons ⟨rfl, rfl⟩ .nil))))))⟩
    exact ⟨rfl, rfl, rfl⟩
  obtain ⟨s, ⟨hplace, hq, hproducers⟩, hrun⟩ := hrun
  refine ⟨_, s, hrun, hplace, by simp [hq], fun i => ?_⟩
  rw [hproducers]
  by_cases hi : i = 0
  · simp [hi]
  · simp [Function.update_of_ne hi]

end Netzwerk
