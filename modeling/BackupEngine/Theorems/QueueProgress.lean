import BackupEngine.Lib.Simulation
import BackupEngine.Netzwerk.TsQueueThreads

/-!
# Calls on the queue return

A push locks `muxBlocking` while it holds `muxQueue`; the consumer never holds both, and gives `muxBlocking` up when it blocks.
So every push that has begun returns, in whatever order the threads go on, and the consumer leaves `wait` or blocks. A consumer
that blocks on a queue that is not empty, since a notification came too early, is brought out by the next push.
-/

namespace Netzwerk

open Cpp Transition

variable {α : Type}

namespace Threads

variable {s t u : Threads α} {e : ThreadEvent α} {es : List (ThreadEvent α)} {i j : Nat}

/-- The steps of a call that has begun. `wait`, `pop` and `insert` begin one, and waking up without a notification is left
out. -/
def UnderWay (_ : Threads α) : ThreadEvent α → Prop
  | .test | .lockBlocking | .block | .relock | .arm _ | .notify _ => True
  | .wait | .wakeUp | .pop | .insert _ _ _ => False

/-- No push is under way, no mutex is held, and the consumer is outside of `wait` or blocked. -/
structure Settled (s : Threads α) : Prop where
  muxQueue : s.muxQueue = none
  muxBlocking : s.muxBlocking = none
  producers : ∀ i, s.producers i = .outside
  consumer : s.consumer = .outside ∨ s.consumer = .blocked

/-- Each mutex is held by the thread that is past its lock, and by no other. -/
structure Holding (s : Threads α) : Prop where
  queue : ∀ i, s.muxQueue = some (.producer i) ↔ s.producers i ≠ .outside
  producer : s.muxQueue ≠ some .consumer
  blocking : ∀ i, s.muxBlocking = some (.producer i) ↔ s.producers i = .armed
  entering : s.muxBlocking = some .consumer ↔ s.consumer = .entering

/-- While a producer holds `muxQueue` the others are outside. -/
theorem Holding.others (h : s.Holding) (hi : s.producers i ≠ .outside) (hj : j ≠ i) : s.producers j = .outside := by
  by_contra hout
  have heq := ((h.queue i).mpr hi).symm.trans ((h.queue j).mpr hout)
  cases heq
  exact hj rfl

/-- A free `muxQueue` means that no producer is in the middle of a push. -/
theorem Holding.free (h : s.Holding) (hfree : s.muxQueue = none) (i : Nat) : s.producers i = .outside := by
  by_contra hout
  have hheld := (h.queue i).mpr hout
  rw [hfree] at hheld
  cases hheld

/-- A step of the consumer that does not change who holds `muxBlocking`. -/
theorem Holding.moved (h : s.Holding) (place : WaitPlace) (hplace : place ≠ .entering) (hbefore : s.consumer ≠ .entering)
    (q : List α) : Holding { s with consumer := place, deqQueue := q } where
  queue := h.queue
  producer := h.producer
  blocking := h.blocking
  entering := by
    refine iff_of_false (fun hown => hbefore (h.entering.mp hown)) hplace

/-- Every step that can be taken leaves a state, and who holds what. -/
theorem Holding.next (h : s.Holding) (he : s.enabled e) : ∃ t, s.next e = .ok t ∧ t.Holding := by
  cases e with
  | wait => exact ⟨_, rfl, h.moved .testing (by decide) (by rw [show s.consumer = .outside from he]; decide) s.deqQueue⟩
  | test =>
    refine ⟨_, rfl, h.moved _ ?_ (by rw [he.1]; decide) s.deqQueue⟩
    split <;> decide
  | lockBlocking =>
    obtain ⟨hplace, hfree⟩ := he
    refine ⟨_, rfl, h.queue, h.producer, fun i => ?_, iff_of_true rfl rfl⟩
    refine iff_of_false nofun fun harmed => ?_
    have hheld := (h.blocking i).mpr harmed
    rw [hfree] at hheld
    cases hheld
  | block =>
    have hown := h.entering.mpr he
    refine ⟨_, rfl, h.queue, h.producer, fun i => ?_, iff_of_false nofun nofun⟩
    refine iff_of_false nofun fun harmed => ?_
    have hheld := (h.blocking i).mpr harmed
    rw [hown] at hheld
    cases hheld
  | wakeUp => exact ⟨_, rfl, h.moved .waking (by decide) (by rw [show s.consumer = .blocked from he]; decide) s.deqQueue⟩
  | relock => exact ⟨_, rfl, h.moved .testing (by decide) (by rw [he.1]; decide) s.deqQueue⟩
  | pop =>
    obtain ⟨hplace, _, hne⟩ := he
    obtain ⟨item, q, hq⟩ := List.exists_cons_of_ne_nil hne
    refine ⟨{ s with deqQueue := q }, bind_eq_ok.mpr ⟨_, TsQueue.popFront_eq_ok.mpr hq, rfl⟩, ?_⟩
    have hkept := h.moved s.consumer (by rw [hplace]; decide) (by rw [hplace]; decide) q
    exact hkept
  | insert i front item =>
    obtain ⟨hout, hfree⟩ := he
    refine ⟨_, rfl, fun j => ?_, nofun, fun j => ?_, h.entering⟩
    · by_cases hj : j = i
      · subst hj
        exact iff_of_true rfl (by simp)
      · simp only [Function.update_of_ne hj, h.free hfree j]
        refine iff_of_false (fun heq => hj ?_) (by simp)
        cases heq
        rfl
    · rw [h.blocking j]
      by_cases hj : j = i
      · subst hj
        exact iff_of_false (by rw [hout]; decide) (by simp)
      · simp only [Function.update_of_ne hj]
  | arm i =>
    obtain ⟨hins, hfree⟩ := he
    have hmid : s.producers i ≠ .outside := by rw [hins]; decide
    refine ⟨_, rfl, fun j => ?_, h.producer, fun j => ?_, ?_⟩
    · rw [h.queue j]
      by_cases hj : j = i
      · subst hj
        exact iff_of_true hmid (by simp)
      · simp only [Function.update_of_ne hj]
    · by_cases hj : j = i
      · subst hj
        exact iff_of_true rfl (by simp)
      · simp only [Function.update_of_ne hj, h.others hmid hj]
        refine iff_of_false (fun heq => hj ?_) (by decide)
        cases heq
        rfl
    · refine iff_of_false nofun fun hentering => ?_
      have hheld := h.entering.mpr hentering
      rw [hfree] at hheld
      cases hheld
  | notify i =>
    have harmed : s.producers i = .armed := he
    have hmid : s.producers i ≠ .outside := by rw [harmed]; decide
    have hall : ∀ j, Function.update s.producers i .outside j = .outside := by
      intro j
      by_cases hj : j = i
      · rw [hj, Function.update_self]
      · rw [Function.update_of_ne hj, h.others hmid hj]
    refine ⟨_, rfl, fun j => iff_of_false nofun (not_not.mpr (hall j)), nofun, fun j => ?_, ?_⟩
    · refine iff_of_false nofun ?_
      simp only [hall j]
      decide
    · refine iff_of_false nofun ?_
      dsimp only
      split
      · decide
      · intro hentering
        have hheld := h.entering.mpr hentering
        rw [(h.blocking i).mpr harmed] at hheld
        cases hheld

/-! ## Rest -/

/-- How far a producer is from the end of its push. -/
def PushPlace.left : PushPlace → Nat
  | .outside => 0
  | .armed => 6
  | .inserted => 12

/-- How far the consumer is from blocking or leaving `wait`. -/
def WaitPlace.left : WaitPlace → Nat
  | .outside => 0
  | .blocked => 1
  | .entering => 2
  | .locking => 3
  | .testing => 4
  | .waking => 5

/-- The steps that are left at most: those of the producer that holds `muxQueue`, and those of the consumer. -/
def left (s : Threads α) : Nat :=
  WaitPlace.left s.consumer +
    match s.muxQueue with
    | some (.producer i) => PushPlace.left (s.producers i)
    | _ => 0

/-- A step of a call under way is one step fewer to go. -/
theorem Holding.left_lt (h : s.Holding) (he : s.enabled e) (hcall : UnderWay s e) (hnext : s.next e = .ok t) :
    t.left < s.left := by
  have hconsumer : ∀ place mux, WaitPlace.left place < WaitPlace.left s.consumer →
      left { s with consumer := place, muxBlocking := mux } < s.left := fun place mux hlt => Nat.add_lt_add_right hlt _
  cases e with
  | wait | wakeUp | pop | insert => exact hcall.elim
  | test =>
    cases hnext
    refine hconsumer _ _ ?_
    rw [he.1]
    split <;> decide
  | lockBlocking =>
    cases hnext
    exact hconsumer _ _ (by rw [he.1]; decide)
  | block =>
    cases hnext
    exact hconsumer _ _ (by rw [show s.consumer = .entering from he]; decide)
  | relock =>
    cases hnext
    exact hconsumer _ _ (by rw [he.1]; decide)
  | arm i =>
    cases hnext
    have hheld := (h.queue i).mpr (by rw [he.1]; decide)
    unfold left
    dsimp only
    rw [hheld]
    dsimp only
    rw [Function.update_self, he.1]
    exact Nat.add_lt_add_left (by decide) _
  | notify i =>
    have harmed : s.producers i = .armed := he
    cases hnext
    have hheld := (h.queue i).mpr (by rw [harmed]; decide)
    unfold left
    dsimp only
    rw [hheld]
    dsimp only
    rw [harmed]
    split
    · rename_i hblocked
      rw [hblocked]
      decide
    · exact Nat.lt_add_of_pos_right (by decide)

/-- Where no call under way can go on, all have returned, except a `wait` that has blocked. -/
theorem Holding.settled (h : s.Holding) (hrest : (machine.when UnderWay).Quiescent s) : s.Settled := by
  have hblocking : ∀ i, s.producers i ≠ .armed := fun i harmed => hrest (.notify i) ⟨harmed, trivial⟩
  have hentering : s.consumer ≠ .entering := fun hentering => hrest .block ⟨hentering, trivial⟩
  have hfree : s.muxBlocking = none := by
    cases hmux : s.muxBlocking with
    | none => rfl
    | some p =>
      cases p with
      | consumer => exact absurd (h.entering.mp hmux) hentering
      | producer i => exact absurd ((h.blocking i).mp hmux) (hblocking i)
  have hproducers : ∀ i, s.producers i = .outside := by
    intro i
    cases hplace : s.producers i with
    | outside => rfl
    | inserted => exact absurd ⟨⟨hplace, hfree⟩, trivial⟩ (hrest (.arm i))
    | armed => exact absurd hplace (hblocking i)
  have hqueue : s.muxQueue = none := by
    cases hmux : s.muxQueue with
    | none => rfl
    | some p =>
      cases p with
      | consumer => exact absurd hmux h.producer
      | producer i => exact absurd (hproducers i) ((h.queue i).mp hmux)
  refine ⟨hqueue, hfree, hproducers, ?_⟩
  cases hplace : s.consumer with
  | outside => exact .inl rfl
  | blocked => exact .inr rfl
  | entering => exact absurd hplace hentering
  | testing => exact absurd ⟨⟨hplace, hqueue⟩, trivial⟩ (hrest .test)
  | locking => exact absurd ⟨⟨hplace, hfree⟩, trivial⟩ (hrest .lockBlocking)
  | waking => exact absurd ⟨⟨hplace, hfree⟩, trivial⟩ (hrest .relock)

/-! ## The next push -/

/-- After a push on a blocked consumer: the queue stays as it is until the consumer is out, and a consumer that is still
blocked has a producer in the middle of its push. -/
structure Reviving (q : List α) (s : Threads α) : Prop where
  queue : s.deqQueue = q
  past : s.consumer ≠ .locking ∧ s.consumer ≠ .entering
  awaited : s.consumer = .blocked → ∃ i, s.producers i ≠ .outside

theorem Reviving.next {q : List α} (hne : q ≠ []) (h : Reviving q s) (he : s.enabled e) (hcall : UnderWay s e)
    (hnext : s.next e = .ok t) : Reviving q t := by
  cases e with
  | wait | wakeUp | pop | insert => exact hcall.elim
  | test =>
    cases hnext
    have hfull : TsQueue.empty s.deqQueue = false := by
      rw [h.queue]
      simpa [TsQueue.empty] using hne
    rw [hfull]
    exact ⟨h.queue, ⟨nofun, nofun⟩, nofun⟩
  | lockBlocking => exact absurd he.1 h.past.1
  | block => exact absurd he h.past.2
  | relock =>
    cases hnext
    exact ⟨h.queue, ⟨nofun, nofun⟩, nofun⟩
  | arm i =>
    cases hnext
    exact ⟨h.queue, h.past, fun _ => ⟨i, by simp⟩⟩
  | notify i =>
    cases hnext
    refine ⟨h.queue, ?_, ?_⟩ <;> dsimp only <;> split
    · exact ⟨nofun, nofun⟩
    · exact h.past
    · exact nofun
    · rename_i hblocked
      exact fun hplace => absurd hplace hblocked

end Threads

/-- The calls on the queue after any run: no step faults; the calls under way return after at most 17 steps together, in
whatever order they go on, so that the threads are outside and the mutexes free then, unless the consumer has blocked; and a
consumer that has blocked is out of `wait` when the next push has returned, with what was pushed in the queue. -/
structure Progress (s : Threads α) : Prop where
  safe : Safe Threads.machine s
  returns : ∀ es t, Run (Threads.machine.when Threads.UnderWay) s es t →
    es.length ≤ 17 ∧ ((Threads.machine.when Threads.UnderWay).Quiescent t → t.Settled)
  revived : ∀ i front item u es t, s.consumer = .blocked → Threads.machine.Step s (.insert i front item) u →
    Run (Threads.machine.when Threads.UnderWay) u es t → (Threads.machine.when Threads.UnderWay).Quiescent t →
    t.consumer = .outside ∧ t.deqQueue = if front then item :: s.deqQueue else s.deqQueue ++ [item]

namespace Threads

variable {s t : Threads α} {es : List (ThreadEvent α)}

theorem Holding.returns (h : s.Holding) (hrun : Run (machine.when UnderWay) s es t) :
    t.Holding ∧ es.length + t.left ≤ s.left := by
  refine Run.length_le left (P := Holding) ?_ h hrun
  rintro s e t hs ⟨⟨hen, hcall⟩, hnext⟩
  obtain ⟨t', ht', hholding⟩ := hs.next hen
  cases ht'.symm.trans hnext
  exact ⟨hholding, hs.left_lt hen hcall hnext⟩

end Threads

end Netzwerk
