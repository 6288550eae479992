import BackupEngine.Lemmas.Dispatch

/-!
# What an update hands out

`update` walks its queue by index while the listeners add to it, and has the rule that ends the round of an event written out
a second time. Whenever it returns, it has done what `addInstantTrigger` does, once for every entry of the queue in order,
the entries that were added under way included, and it leaves the queue empty.
-/

namespace Events

open Cpp

namespace Dispatcher

variable {σ : Type} {onEvent : OnEvent σ} {s t u : Dispatcher σ} {e l : Addr}

/-- Whenever `update` returns, it has served each entry of the queue once: those that were there, and behind them those
queued while it ran, in the order they were queued. -/
theorem update_serves {fuel : Nat} (h : s.update onEvent fuel = .ok (some t)) :
    ∃ u es enqueued, Serves onEvent s es u ∧ u.onNextUpdate = s.onNextUpdate ++ enqueued ∧
      es.map Prod.fst = s.onNextUpdate ++ enqueued ∧
      ((s.onNextUpdate ++ enqueued).Nodup → ∀ e ∈ s.onNextUpdate ++ enqueued, (es.map Prod.fst).count e = 1) ∧
      t.calls = s.calls ++ (es.flatMap fun p => p.2.map (·, p.1)) ∧ t = { u with onNextUpdate := [] } := by
  obtain ⟨r, hloop, hr⟩ := bind_eq_ok.mp h
  cases r with
  | none => cases hr
  | some u =>
    cases hr
    obtain ⟨es, hes, hmap⟩ := queueLoop_serves hloop
    obtain ⟨enqueued, henqueued⟩ := hes.extends.onNextUpdate
    rw [List.drop_zero, ← henqueued] at hmap
    refine ⟨u, es, enqueued, hes, henqueued.symm, hmap, fun hnodup e he => ?_, hes.calls_eq, rfl⟩
    rw [hmap]
    exact List.count_eq_one_of_mem hnodup he

/-- Two listeners: the second one consumes every event, and queues the event 11 when it is handed the event 10. -/
def twoListeners : OnEvent Unit := fun listener e events world =>
  .ok { consumed := listener == 2, events, world, triggered := if listener == 2 && e == 10 then [11] else [] }

/-- The event 10 is queued; the event 11 is usable too, and is to be destroyed. -/
def twoEvents : Dispatcher Unit where
  listener := [1, 2]
  listenerIDs := [(0, 0), (0, 1)]
  onNextUpdate := [10]
  events := fun e => if e = 10 then some ⟨true, false⟩ else if e = 11 then some ⟨true, true⟩ else none
  world := ()

/-- The event queued for the last listener of the last entry is handed out too. -/
theorem update_serves_two :
    ∃ t u es enqueued, twoEvents.update twoListeners 3 = .ok (some t) ∧ Serves twoListeners twoEvents es u ∧
      es.map Prod.fst = [10] ++ enqueued ∧ t.onNextUpdate = [] ∧ t.events 11 = none ∧
      t.calls = [(1, 10), (2, 10), (1, 11), (2, 11)] := by
  obtain ⟨t, ht, hevents, hcalls⟩ : ∃ t, twoEvents.update twoListeners 3 = .ok (some t) ∧ t.events 11 = none ∧
      t.calls = [(1, 10), (2, 10), (1, 11), (2, 11)] := ⟨_, rfl, rfl, rfl⟩
  obtain ⟨u, es, enqueued, hes, _, hmap, _, _, rfl⟩ := update_serves ht
  exact ⟨_, u, es, enqueued, ht, hes, hmap, rfl, hevents, hcalls⟩

end Dispatcher

end Events
