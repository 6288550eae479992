import BackupEngine.Lemmas.Sessions

/-!
# Closing the socket of a client

`Disconnect` posts the close and stops the context right behind it; then it gives the connection up without destroying it. So
the socket is closed when it returns only if the thread came to a handler that closes it before the flag was set. The thread
runs the handlers in the order in which they became ready, and a schedule tells how many it runs.
-/

namespace Netzwerk

open Transition

/-- What a calling thread in `Disconnect` does, what completes meanwhile, and what the thread of the context does. -/
def ClientEvent.NoCall : ClientEvent → Prop
  | .connect _ => False
  | .disconnect => False
  | _ => True

namespace ClientInterface

/-- The handlers that become ready in a schedule, for a client whose connection is `c`. -/
def arrivals (c : ConnPtr) (schedule : List ClientEvent) : List Handler :=
  schedule.filterMap fun e => match e with
    | .ready h => some h
    | .post => some ⟨c, .close⟩
    | _ => none

/-- How many handlers the thread runs in a schedule. -/
def handles (schedule : List ClientEvent) : Nat := schedule.count (.thread .handle)

/-- One of the handlers that the thread comes to closes the socket of `c`. -/
def ClosedInTime (s : ClientInterface) (c : ConnPtr) (schedule : List ClientEvent) : Prop :=
  ∃ h ∈ (s.context.ready ++ arrivals c schedule).take (handles schedule), h.conn = c ∧ h.kind.closes = true

/-- What a part of a schedule leaves: the handlers not run yet, and the socket, closed if one of those run closes it. -/
structure Progress (s : ClientInterface) (c : ConnPtr) (schedule : List ClientEvent) (t : ClientInterface) : Prop where
  le : handles schedule ≤ (s.context.ready ++ arrivals c schedule).length
  ready : t.context.ready = (s.context.ready ++ arrivals c schedule).drop (handles schedule)
  socket : t.isOpen c = false ↔ s.ClosedInTime c schedule
  connection : t.place ≠ .outside → t.connection = some c

section

variable {s t u : ClientInterface} {c : ConnPtr} {schedule : List ClientEvent} {e : ClientEvent}

theorem arrivals_concat (c : ConnPtr) (schedule : List ClientEvent) (e : ClientEvent) :
    arrivals c (schedule ++ [e]) = arrivals c schedule ++ arrivals c [e] := List.filterMap_append

theorem handles_concat (schedule : List ClientEvent) (e : ClientEvent) :
    handles (schedule ++ [e]) = handles schedule + if e = .thread .handle then 1 else 0 := by
  rw [handles, List.count_append, List.count_singleton]
  simp only [beq_iff_eq]
  rfl

/-- A step that is not a handler: the handlers that become ready with it come last. -/
theorem Progress.quiet (h : Progress s c schedule t) (he : e ≠ .thread .handle)
    (hready : u.context.ready = t.context.ready ++ arrivals c [e]) (hopen : u.isOpen = t.isOpen)
    (hconn : u.place ≠ .outside → u.connection = some c) : Progress s c (schedule ++ [e]) u := by
  have hcount : handles (schedule ++ [e]) = handles schedule := by rw [handles_concat, if_neg he, Nat.add_zero]
  have hall : s.context.ready ++ arrivals c (schedule ++ [e]) = s.context.ready ++ arrivals c schedule ++ arrivals c [e] := by
    rw [arrivals_concat, List.append_assoc]
  constructor
  case le =>
    rw [hcount, hall, List.length_append]
    exact Nat.le_trans h.le (Nat.le_add_right _ _)
  case ready => rw [hready, h.ready, hcount, hall, List.drop_append_of_le_length h.le]
  case socket => rw [hopen, h.socket, ClosedInTime, ClosedInTime, hcount, hall, List.take_append_of_le_length h.le]
  case connection => exact hconn

/-- A handler: it is the first of those not run yet. -/
theorem Progress.handle (h : Progress s c schedule t) (hne : t.context.ready ≠ []) :
    Progress s c (schedule ++ [.thread .handle]) (t.threadStep .handle) := by
  obtain ⟨a, ready, hready⟩ := List.exists_cons_of_ne_nil hne
  have hcount : handles (schedule ++ [.thread .handle]) = handles schedule + 1 := by rw [handles_concat, if_pos rfl]
  have hall : arrivals c (schedule ++ [.thread .handle]) = arrivals c schedule := by
    rw [arrivals_concat]
    exact List.append_nil _
  have hdrop : (s.context.ready ++ arrivals c schedule).drop (handles schedule) = a :: ready := h.ready.symm.trans hready
  have hget : (s.context.ready ++ arrivals c schedule)[handles schedule]? = some a := by
    rw [← List.head?_drop, hdrop, List.head?_cons]
  have hstep : t.threadStep .handle = { t with context := t.context.next t.begins .handle }.handled a := by
    simp only [threadStep, hready]
  have hleft : (t.threadStep .handle).context.ready = ready := by
    rw [hstep]
    show (t.context.next t.begins .handle).ready = ready
    rw [IoContext.next_handle hready, IoContext.workFinished_ready]
    rfl
  constructor
  case le =>
    rw [hcount, hall]
    exact (List.getElem?_eq_some_iff.mp hget).1
  case ready => rw [hleft, hcount, hall, ← List.drop_drop, hdrop, List.drop_one, List.tail_cons]
  case socket =>
    have htake : (s.context.ready ++ arrivals c schedule).take (handles schedule + 1) =
        (s.context.ready ++ arrivals c schedule).take (handles schedule) ++ [a] := by
      rw [List.take_add_one, hget, Option.toList_some]
    have hclosed : (t.threadStep .handle).isOpen c = false ↔ t.isOpen c = false ∨ (a.conn = c ∧ a.kind.closes = true) := by
      rw [hstep, handled]
      by_cases hcloses : a.kind.closes = true
      · by_cases hconn : c = a.conn
        · simp [hcloses, hconn]
        · simp [hcloses, Function.update_of_ne hconn, Ne.symm hconn]
      · simp [hcloses]
    rw [hclosed, h.socket, ClosedInTime, ClosedInTime, hcount, hall, htake]
    constructor
    · rintro (⟨b, hb, hrest⟩ | hrest)
      · exact ⟨b, List.mem_append_left _ hb, hrest⟩
      · exact ⟨a, List.mem_append_right _ (List.mem_singleton_self a), hrest⟩
    · rintro ⟨b, hb, hrest⟩
      rcases List.mem_append.mp hb with hb | hb
      · exact .inl ⟨b, hb, hrest⟩
      · exact .inr (List.mem_singleton.mp hb ▸ hrest)
  case connection =>
    intro hplace
    have hsame : (t.threadStep .handle).place = t.place ∧ (t.threadStep .handle).connection = t.connection := by
      rw [hstep]
      exact ⟨rfl, rfl⟩
    rw [hsame.2]
    exact h.connection (hsame.1 ▸ hplace)

theorem Progress.step (h : Progress s c schedule t) (he : e.NoCall) (hstep : machine.Step t e u) :
    Progress s c (schedule ++ [e]) u := by
  obtain ⟨hen, hu⟩ := hstep
  have hplace : ∀ {place}, t.place = place → place ≠ .outside → t.connection = some c :=
    fun heq hne => h.connection (heq ▸ hne)
  cases e with
  | connect => exact he.elim
  | disconnect => exact he.elim
  | ask =>
    cases hu
    exact h.quiet nofun (List.append_nil _).symm rfl fun _ => hplace hen nofun
  | askAgain =>
    cases hu
    exact h.quiet nofun (List.append_nil _).symm rfl fun _ => hplace hen nofun
  | post =>
    cases hu
    have hconn := hplace hen nofun
    refine h.quiet nofun ?_ rfl fun _ => hconn
    rw [hconn]
    rfl
  | stop =>
    cases hu
    exact h.quiet nofun (List.append_nil _).symm rfl fun _ => hplace hen nofun
  | join =>
    cases hu
    exact h.quiet nofun (List.append_nil _).symm rfl fun _ => hplace hen.1 nofun
  | release =>
    cases hu
    exact h.quiet nofun (List.append_nil _).symm rfl fun hne => absurd rfl hne
  | ready a =>
    cases hu
    simp only [becomesReady]
    cases a.operation <;> exact h.quiet nofun rfl rfl h.connection
  | thread e =>
    cases hu
    cases e with
    | enter =>
      refine h.quiet nofun ?_ rfl h.connection
      exact (IoContext.workFinished_ready _).trans (List.append_nil _).symm
    | handle => exact h.handle hen.2.2
    | leave => exact h.quiet nofun (List.append_nil _).symm rfl h.connection

end

/-- A call of `Disconnect` from the state `s` that returns in the state `t`, by a schedule of what the calling thread and the
thread of the context do. -/
structure Disconnects (s : ClientInterface) (schedule : List ClientEvent) (t : ClientInterface) : Prop where
  noCall : ∀ e ∈ schedule, e.NoCall
  run : Run machine s (.disconnect :: schedule) t
  returned : t.place = .outside

/-- From every state of a client that is connected, and for every schedule of a call of `Disconnect` that returns: the socket
is closed exactly when one of the handlers that the thread runs in it, which are as many as the schedule says and in the order
in which they became ready, closes it. -/
theorem closed_iff {s t : ClientInterface} {c : ConnPtr} {schedule : List ClientEvent} (hconn : s.connection = some c)
    (hopen : s.isOpen c = true) (h : Disconnects s schedule t) : t.isOpen c = false ↔ s.ClosedInTime c schedule := by
  obtain ⟨s', ⟨_, hs'⟩, hrun⟩ := h.run.uncons
  cases hs'
  have hstart : Progress s c [] { s with place := .asking } :=
    ⟨Nat.zero_le _, (List.append_nil _).symm, by simp [ClosedInTime, handles, hopen], fun _ => hconn⟩
  have hall : (∀ e ∈ schedule, e.NoCall) → Progress s c schedule t := by
    refine hrun.invariant (fun as t => (∀ e ∈ as, e.NoCall) → Progress s c as t) (fun _ => hstart) ?_
    intro as t e u ht hstep has
    exact (ht fun e he => has e (List.mem_append_left _ he)).step (has e (by simp)) hstep
  exact (hall h.noCall).socket

/-- From every such state some schedule leaves the socket open: the thread runs no handler before the flag is set. -/
theorem left_open {s : ClientInterface} {c : ConnPtr} (hplace : s.place = .outside) (hconn : s.connection = some c)
    (hopen : s.isOpen c = true) : ∃ schedule t, Disconnects s schedule t ∧ t.isOpen c = true := by
  have hconnected : s.isConnected = true := by simp only [isConnected, hconn, hopen]
  -- The calling thread up to `stop`.
  have hstop : Run machine s [.disconnect, .ask, .askAgain, .post, .stop]
      { s with context := (s.context.post ⟨c, .close⟩).stop, place := .joining } := by
    have hasked : ∀ place : DisconnectPlace, isConnected { s with place := place } = true := fun _ => hconnected
    refine .cons (t := { s with place := .asking }) ⟨hplace, rfl⟩ ?_
    refine .cons (t := { s with place := .askingAgain }) ⟨rfl, ?_⟩ ?_
    · simp only [machine, next, hasked, if_true]
    refine .cons (t := { s with place := .posting }) ⟨rfl, ?_⟩ ?_
    · simp only [machine, next, hasked, if_true]
    refine .cons (t := { s with context := s.context.post ⟨c, .close⟩, place := .stopping }) ⟨rfl, ?_⟩ ?_
    · simp only [machine, next, hconn, Option.map_some, Option.getD_some]
    exact .single ⟨rfl, rfl⟩
  have hnocall : ∀ e ∈ [ClientEvent.ask, .askAgain, .post, .stop, .join, .release], e.NoCall := by
    simp [ClientEvent.NoCall]
  rcases hthread : s.context.thread with _ | (_ | _ | _)
  case none =>
    refine ⟨[.ask, .askAgain, .post, .stop, .join, .release], _, ⟨hnocall, hstop.append (.cons ⟨⟨rfl, .inl hthread⟩, rfl⟩
      (.single ⟨rfl, rfl⟩)), rfl⟩, hopen⟩
  case some.returned =>
    refine ⟨[.ask, .askAgain, .post, .stop, .join, .release], _, ⟨hnocall, hstop.append (.cons ⟨⟨rfl, .inr hthread⟩, rfl⟩
      (.single ⟨rfl, rfl⟩)), rfl⟩, hopen⟩
  all_goals
    refine ⟨[.ask, .askAgain, .post, .stop, .thread .leave, .join, .release], _, ⟨?_, hstop.append (.cons (t := _)
      ⟨⟨?_, rfl⟩, rfl⟩ (.cons ⟨⟨rfl, .inr rfl⟩, rfl⟩ (.single ⟨rfl, rfl⟩))), rfl⟩, hopen⟩
  case some.entering.refine_1 => simp [ClientEvent.NoCall]
  case some.entering.refine_2 => exact .inl hthread
  case some.looping.refine_1 => simp [ClientEvent.NoCall]
  case some.looping.refine_2 => exact .inr hthread

/-- A client that has connected, with its thread in the loop. -/
def running : ClientInterface where
  context := { pending := [⟨0, .connect⟩], thread := some .looping }
  connection := some 0
  made := 1
  isOpen := Function.update (fun _ => false) 0 true
  result := some true

/-- A new client gets there by a `Connect` that returns. -/
theorem running_reached : Run machine {} [.connect .returns, .thread .enter] running :=
  .cons ⟨⟨rfl, rfl⟩, rfl⟩ (.single ⟨⟨rfl, rfl⟩, rfl⟩)

/-- The thread runs the posted handler before the flag is set: the socket is closed. -/
theorem closed_by_posted :
    ∃ t, Disconnects running [.ask, .askAgain, .post, .thread .handle, .stop, .thread .leave, .join, .release] t ∧
      t.isOpen 0 = false := by
  have hrun : Run machine running [.disconnect, .ask, .askAgain, .post, .thread .handle, .stop, .thread .leave, .join, .release] _ :=
    .cons ⟨rfl, rfl⟩ (.cons ⟨rfl, rfl⟩ (.cons ⟨rfl, rfl⟩ (.cons ⟨rfl, rfl⟩
      (.cons ⟨⟨rfl, rfl, List.cons_ne_nil _ _⟩, rfl⟩ (.cons ⟨rfl, rfl⟩ (.cons ⟨⟨.inr rfl, rfl⟩, rfl⟩
        (.cons ⟨⟨rfl, .inr rfl⟩, rfl⟩ (.single ⟨rfl, rfl⟩))))))))
  have hdisconnects : Disconnects running _ _ := ⟨by simp [ClientEvent.NoCall], hrun, rfl⟩
  refine ⟨_, hdisconnects, (closed_iff rfl rfl hdisconnects).mpr ⟨⟨0, .close⟩, ?_, rfl, rfl⟩⟩
  exact List.mem_singleton_self _

/-- The flag is set before the thread comes to the posted handler: `Disconnect` returns, and the socket is open. -/
theorem open_after_disconnect :
    Run machine {} [.connect .returns, .thread .enter] running ∧
      ∃ t, Disconnects running [.ask, .askAgain, .post, .stop, .thread .leave, .join, .release] t ∧
        t.connection = none ∧ t.context.ready = [⟨0, .close⟩] ∧ t.isOpen 0 = true := by
  have hrun : Run machine running [.disconnect, .ask, .askAgain, .post, .stop, .thread .leave, .join, .release] _ :=
    .cons ⟨rfl, rfl⟩ (.cons ⟨rfl, rfl⟩ (.cons ⟨rfl, rfl⟩ (.cons ⟨rfl, rfl⟩ (.cons ⟨rfl, rfl⟩
      (.cons ⟨⟨.inr rfl, rfl⟩, rfl⟩ (.cons ⟨⟨rfl, .inr rfl⟩, rfl⟩ (.single ⟨rfl, rfl⟩)))))))
  exact ⟨running_reached, _, ⟨by simp [ClientEvent.NoCall], hrun, rfl⟩, rfl, rfl, rfl⟩

end ClientInterface

end Netzwerk
