import BackupEngine.Lemmas.WriteLoop

/-!
# The write loop

The messages given to `Send` go out one after the other, whatever the interleaving of the posted handlers with the
completions of the writes: the queue itself is the flag that says whether a write is outstanding.
-/

namespace Netzwerk

open Cpp Transition Connection

variable {T : Type} [StandardLayout (MessageHeader T)]

/-- What holds of the writing half after the events of a run. -/
structure WriteLaw (events : List (WriteEvent T)) (c : Connection T) : Prop where
  /-- At most one write is outstanding. -/
  one : c.writes.length ≤ 1
  /-- It covers the header or the body of the message at the front. -/
  front : ∀ w ∈ c.writes, w.msg = c.popped ∧ ∃ m rest, c.qMessagesOut = m :: rest ∧ c.buffer w = .ok (w.part.bytes m)
  /-- Until it completes, every event leaves that message at the front. -/
  kept : ∀ w ∈ c.writes, ∀ e c', writer.Step c e c' → (∀ i, e ≠ .complete i ∧ e ≠ .fail i) →
    c'.popped = c.popped ∧ c'.qMessagesOut.head? = c.qMessagesOut.head?
  /-- The bytes written are a first part of the messages sent. -/
  inOrder : c.written <+: Message.encodeAll (sends events)
  /-- While no write has failed, one is outstanding exactly when the queue is not empty. -/
  busy : failures events = 0 → (c.writes ≠ [] ↔ c.qMessagesOut ≠ [])
  /-- After a failed write none is started. -/
  stopped : failures events ≠ 0 → ∀ more c', Run writer c more c' → c'.started = c.started ∧ c'.writes = []
  /-- No handler pops or reads an empty queue, and no write covers a message that has left it. -/
  safe : Safe writer c

/-- For every interleaving of `Send` handlers with transfers, completions and failures of the writes, from a connection to
which nothing was sent yet. -/
theorem writeLoop_law (start : Connection T) (events : List (WriteEvent T)) (c : Connection T)
    (hq : start.qMessagesOut = []) (hw : start.writes = []) (hp : start.popped = 0) (hb : start.written = [])
    (h : Run writer start events c) : WriteLaw events c := by
  obtain ⟨hplaced, hsafe⟩ := placed_of_run (idle_new start hq hw hp hb) h
  rcases hplaced with ⟨hok, hidle | ⟨pre, m, rest, part, done, hbusy⟩⟩ | ⟨hfail, pre, m, rest, hstop⟩
  · exact {
      one := by simp [hidle.writes]
      front := by simp [hidle.writes]
      kept := by simp [hidle.writes]
      inOrder := hidle.written ▸ List.prefix_refl _
      busy := fun _ => by simp [hidle.writes, hidle.queue]
      stopped := fun hne => absurd hok hne
      safe := hsafe }
  · refine {
      one := by simp [hbusy.writes]
      front := ?_
      kept := fun w _ e c' hstep he => hbusy.kept hstep he
      inOrder := Running.written_prefix (.inr ⟨pre, m, rest, part, done, hbusy⟩)
      busy := fun _ => by simp [hbusy.writes, hbusy.queue]
      stopped := fun hne => absurd hok hne
      safe := hsafe }
    · intro w hmem
      obtain rfl : w = { part := part, msg := pre.length, done := done } := by simpa [hbusy.writes] using hmem
      exact ⟨hbusy.popped.symm, m, rest, hbusy.queue, hbusy.buffer⟩
  · refine {
      one := by simp [hstop.writes]
      front := by simp [hstop.writes]
      kept := by simp [hstop.writes]
      inOrder := Failed.written_prefix ⟨pre, m, rest, hstop⟩
      busy := fun hok => absurd hok hfail
      stopped := ?_
      safe := hsafe }
    · intro _ more c' hrun
      obtain ⟨hstarted, _, _, _, hstop'⟩ := Failed.run ⟨pre, m, rest, hstop⟩ hrun
      exact ⟨hstarted, hstop'.writes⟩

/-- Two messages, the second sent while the header of the first is being written. -/
theorem writeLoop_law_two_messages :
    ∃ c : Connection UInt32, c.qMessagesOut.length = 1 ∧
      WriteLaw [.send ⟨⟨7, 0⟩, []⟩, .transfer 0 5, .send ⟨⟨8, 1⟩, [3]⟩, .transfer 0 3, .complete 0] c := by
  have hrun : ∃ c, c.qMessagesOut.length = 1 ∧ Run writer ({ self := 1, msgTemporaryIn := default } : Connection UInt32)
      [.send ⟨⟨7, 0⟩, []⟩, .transfer 0 5, .send ⟨⟨8, 1⟩, [3]⟩, .transfer 0 3, .complete 0] c := by
    refine ⟨_, ?_, .cons ⟨trivial, rfl⟩ (.cons ⟨⟨rfl, _, rfl, ?_⟩, rfl⟩ (.cons ⟨trivial, rfl⟩
      (.cons ⟨⟨rfl, _, rfl, ?_⟩, rfl⟩ (.cons ⟨⟨_, rfl, ?_⟩, rfl⟩ .nil))))⟩
    · rfl
    all_goals exact ⟨by decide, by decide⟩
  obtain ⟨c, hc, hrun⟩ := hrun
  exact ⟨c, hc, writeLoop_law _ _ c rfl rfl rfl rfl hrun⟩

end Netzwerk
