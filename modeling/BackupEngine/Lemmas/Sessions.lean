import BackupEngine.Netzwerk.ServerStart

/-!
# Sessions on an io_context

When a context serves, what the calls of a session and the work that is left make of its flag, and when a machine with sessions
serves all of them.
-/

namespace Netzwerk

open Transition

/-! ## When a context serves -/

namespace IoContext

variable {O H : Type} {begins : H → List O} {c : IoContext O H}

@[simp] theorem workFinished_pending (c : IoContext O H) : c.workFinished.pending = c.pending := by
  unfold workFinished
  split <;> rfl

@[simp] theorem workFinished_ready (c : IoContext O H) : c.workFinished.ready = c.ready := by
  unfold workFinished
  split <;> rfl

@[simp] theorem workFinished_ran (c : IoContext O H) : c.workFinished.ran = c.ran := by
  unfold workFinished
  split <;> rfl

/-- While work is left the flag stays. -/
theorem workFinished_of_not_idle (h : ¬c.Idle) : c.workFinished = c := if_neg h

theorem workFinished_of_idle (h : c.Idle) : c.workFinished = c.stop := if_pos h

/-- A context with a ready handler has work left. -/
theorem not_idle_of_ready {h : H} {ready : List H} (hready : c.ready = h :: ready) : ¬c.Idle := by
  rintro ⟨_, hnone⟩
  rw [hready] at hnone
  cases hnone

theorem next_handle {h : H} {ready : List H} (hready : c.ready = h :: ready) :
    c.next begins .handle = ({ c with ready := ready, ran := c.ran ++ [h] }.initiate (begins h)).workFinished := by
  simp only [next, hready]

/-- Starting the thread. -/
theorem start_eq_ok {d : IoContext O H} : c.start = .ok d ↔ c.thread = none ∧ d = { c with thread := some .entering } := by
  unfold start
  cases c.thread <;> simp [eq_comm]

/-- The thread of a context that is not stopped runs all ready handlers: the flag is set behind the last of them at the
earliest. -/
theorem run_all (begins : H → List O) (ready : List H) : ∀ c : IoContext O H, c.thread = some .looping → c.stopped = false →
    c.ready = ready → ∃ steps t, Run (run begins) c steps t ∧ t.ran = c.ran ++ ready := by
  induction ready with
  | nil =>
    intro c _ _ _
    exact ⟨[], c, .nil, (List.append_nil _).symm⟩
  | cons h ready ih =>
    intro c hthread hstopped hready
    have hen : c.enabled .handle := ⟨hthread, hstopped, by rw [hready]; nofun⟩
    have hstep : (run begins).Step c .handle (c.next begins .handle) := ⟨hen, rfl⟩
    cases ready with
    | nil =>
      refine ⟨[.handle], _, .single hstep, ?_⟩
      rw [next_handle hready, workFinished_ran]
      rfl
    | cons h' ready =>
      have hbusy : ¬({ c with ready := h' :: ready, ran := c.ran ++ [h] }.initiate (begins h)).Idle :=
        not_idle_of_ready (h := h') rfl
      rw [next_handle hready, workFinished_of_not_idle hbusy] at hstep
      obtain ⟨steps, t, hrun, hran⟩ :=
        ih ({ c with ready := h' :: ready, ran := c.ran ++ [h] }.initiate (begins h)) hthread hstopped rfl
      refine ⟨.handle :: steps, t, .cons hstep hrun, ?_⟩
      rw [hran]
      exact List.append_assoc _ _ _

/-- The thread of a stopped context runs none, and neither does one that is out of `run`. -/
theorem run_none {t : IoContext O H} {steps : List RunStep} (h : Run (run begins) c steps t)
    (hidle : c.stopped = true ∨ c.thread = none ∨ c.thread = some .returned) : t.ran = c.ran := by
  have hinv : t.ran = c.ran ∧ (t.stopped = true ∨ t.thread = none ∨ t.thread = some .returned) := by
    refine h.invariant (fun _ t => t.ran = c.ran ∧ (t.stopped = true ∨ t.thread = none ∨ t.thread = some .returned))
      ⟨rfl, hidle⟩ ?_
    rintro as t e u ⟨hran, hidle⟩ ⟨hen, hu⟩
    cases hu
    cases e with
    | enter =>
      obtain ⟨hthread, hstopped⟩ := hen
      simp [hthread, hstopped] at hidle
    | handle =>
      obtain ⟨hthread, hstopped, _⟩ := hen
      simp [hthread, hstopped] at hidle
    | leave => exact ⟨hran, .inr (.inr rfl)⟩
  exact hinv.1

/-- A context serves exactly when it is not stopped and its thread is in `run`. -/
theorem serves_iff [Nonempty H] : c.Serves ↔ c.stopped = false ∧ (c.thread = some .entering ∨ c.thread = some .looping) := by
  constructor
  · intro hserves
    obtain ⟨h⟩ := ‹Nonempty H›
    obtain ⟨steps, t, hrun, hran⟩ := hserves (fun _ => []) h
    have hbusy : ¬(c.stopped = true ∨ c.thread = none ∨ c.thread = some .returned) := by
      intro hidle
      have hnone : t.ran = (c.post h).ran := run_none hrun hidle
      have := congrArg List.length (hnone.symm.trans hran)
      simp [post] at this
    rcases hthread : c.thread with _ | (_ | _ | _) <;> simp_all
  · rintro ⟨hstopped, hthread⟩ begins h
    rcases hthread with hthread | hthread
    · obtain ⟨steps, t, hrun, hran⟩ :=
        run_all begins (c.ready ++ [h]) { c.post h with thread := some .looping } rfl hstopped rfl
      have hbusy : ¬{ c.post h with thread := some .looping }.Idle := fun hidle => by simp [Idle, post] at hidle
      refine ⟨.enter :: steps, t, .cons ⟨⟨hthread, hstopped⟩, congrArg Except.ok (workFinished_of_not_idle hbusy)⟩ hrun, ?_⟩
      rw [hran, List.append_assoc]
      rfl
    · obtain ⟨steps, t, hrun, hran⟩ := run_all begins (c.ready ++ [h]) (c.post h) hthread hstopped rfl
      refine ⟨steps, t, hrun, ?_⟩
      rw [hran, List.append_assoc]
      rfl

/-! ## Work that goes on

A chain of operations, each of which is begun by the handler of the one before.
-/

/-- An operation of a kind is under way, or its handler is ready. -/
def Alive (ops : O → Prop) (handlers : H → Prop) (c : IoContext O H) : Prop :=
  (∃ o ∈ c.pending, ops o) ∨ ∃ h ∈ c.ready, handlers h

variable {ops : O → Prop} {handlers : H → Prop}

theorem Alive.of_pending {o : O} (ho : o ∈ c.pending) (hops : ops o) : c.Alive ops handlers := .inl ⟨o, ho, hops⟩

theorem Alive.post (h : c.Alive ops handlers) (a : H) : (c.post a).Alive ops handlers :=
  h.imp id fun ⟨b, hb, hhandlers⟩ => ⟨b, List.mem_append_left _ hb, hhandlers⟩

/-- The handler of an operation of the kind becomes ready with it. -/
theorem Alive.complete [DecidableEq O] {o : O} {a : H} (h : c.Alive ops handlers) (ha : ops o → handlers a) :
    (c.complete o a).Alive ops handlers := by
  rcases h with ⟨o', ho', hops⟩ | ⟨b, hb, hhandlers⟩
  · by_cases heq : o' = o
    · exact .inr ⟨a, List.mem_append_right _ (List.mem_singleton_self a), ha (heq ▸ hops)⟩
    · exact .inl ⟨o', (List.mem_erase_of_ne heq).mpr ho', hops⟩
  · exact .inr ⟨b, List.mem_append_left _ hb, hhandlers⟩

/-- The handler that is run is of another kind, or it begins an operation of this one. -/
theorem Alive.handle {a : H} {ready : List H} (h : c.Alive ops handlers) (hready : c.ready = a :: ready)
    (ha : handlers a → ∃ o ∈ begins a, ops o) : (c.next begins .handle).Alive ops handlers := by
  rw [next_handle hready, Alive, workFinished_pending, workFinished_ready]
  rcases h with ⟨o, ho, hops⟩ | ⟨b, hb, hhandlers⟩
  · exact .inl ⟨o, List.mem_append_left _ ho, hops⟩
  · rw [hready] at hb
    rcases List.mem_cons.mp hb with rfl | hb
    · obtain ⟨o, ho, hops⟩ := ha hhandlers
      exact .inl ⟨o, List.mem_append_right _ ho, hops⟩
    · exact .inr ⟨b, hb, hhandlers⟩

theorem Alive.enter (h : c.Alive ops handlers) : (c.next begins .enter).Alive ops handlers := by
  rw [next, Alive, workFinished_pending, workFinished_ready]
  exact h

/-- The last handler is of the kind. -/
theorem Alive.last {a : H} (h : c.Alive ops handlers) (hpending : c.pending = []) (hready : c.ready = [a]) : handlers a := by
  rcases h with ⟨o, ho, _⟩ | ⟨b, hb, hhandlers⟩
  · rw [hpending] at ho
    exact absurd ho List.not_mem_nil
  · rw [hready] at hb
    exact List.mem_singleton.mp hb ▸ hhandlers

end IoContext

/-! ## What the calls and the work make of the flag -/

namespace Session

variable {O H : Type}

theorem calls_append (as bs : List (SessionEvent O H)) :
    SessionEvent.calls (as ++ bs) = SessionEvent.calls as ++ SessionEvent.calls bs := List.filterMap_append

/-- As long as work is left in a session, the flag is set exactly when one was closed, and the thread of a session is in `run`
unless it is. -/
structure Inv (calls : List Call) (s : Session O H) : Prop where
  closed : s.context.stopped = true → .closes ∈ calls
  stopping : s.phase = .stopping → .closes ∈ calls
  stopped : .closes ∈ calls → s.phase ≠ .stopping → s.context.stopped = true
  thread : s.phase = .opened → s.context.stopped = false →
    s.context.thread = some .entering ∨ s.context.thread = some .looping
  last : s.phase = .opened → ∃ cs, calls = cs ++ [.opens true]
  running : s.context.thread = some .entering ∨ s.context.thread = some .looping → s.phase = .opened ∨ .closes ∈ calls
  work : s.context.thread = some .entering → ¬s.context.Idle

/-- A context that differs in what is outstanding, or in where its thread is in `run`. -/
theorem Inv.context {calls : List Call} {s : Session O H} (h : Inv calls s) {context : IoContext O H}
    (hstopped : context.stopped = s.context.stopped)
    (hthread : s.context.thread = some .entering ∨ s.context.thread = some .looping →
      context.thread = some .entering ∨ context.thread = some .looping)
    (hrunning : context.thread = some .entering ∨ context.thread = some .looping →
      s.context.thread = some .entering ∨ s.context.thread = some .looping)
    (hwork : context.thread = some .entering → ¬context.Idle) : Inv calls { s with context := context } where
  closed := fun hs => h.closed (hstopped ▸ hs)
  stopping := h.stopping
  stopped := fun hc hne => hstopped ▸ h.stopped hc hne
  thread := fun hopened hs => hthread (h.thread hopened (hstopped ▸ hs))
  last := h.last
  running := fun hrun => h.running (hrunning hrun)
  work := hwork

theorem inv_new : Inv [] ({} : Session O H) where
  closed := fun h => nomatch h
  stopping := fun h => nomatch h
  stopped := fun h => nomatch h
  thread := fun h => nomatch h
  last := fun h => nomatch h
  running := fun h => by simp at h
  work := fun h => nomatch h

section

variable {as : List (SessionEvent O H)} {s t : Session O H}

/-- A handler. The context stops itself only behind the last one while the caller closes the session. -/
theorem Inv.handle {calls : List Call} {begun : List O} (h : Inv calls s) (hen : s.context.enabled .handle)
    (hkeeps : s.KeepsWork (.thread .handle begun)) :
    Inv calls { s with context := s.context.next (fun _ => begun) .handle } := by
  obtain ⟨hthread, hstopped, hready⟩ := hen
  obtain ⟨a, ready, hready⟩ := List.exists_cons_of_ne_nil hready
  rw [IoContext.next_handle hready]
  by_cases hidle : ({ s.context with ready := ready, ran := s.context.ran ++ [a] }.initiate begun).Idle
  · rw [IoContext.workFinished_of_idle hidle]
    obtain ⟨hpending, rfl⟩ : s.context.pending ++ begun = [] ∧ ready = [] := hidle
    obtain ⟨hpending, hbegun⟩ := List.append_eq_nil_iff.mp hpending
    have hopened : s.phase ≠ .opened := fun hopened =>
      hkeeps hopened (by rw [hbegun]) hpending (by rw [hready]; rfl)
    have hmem : .closes ∈ calls := (h.running (.inr hthread)).resolve_left hopened
    exact ⟨fun _ => hmem, h.stopping, fun _ _ => rfl, fun hphase => absurd hphase hopened, h.last, fun _ => .inr hmem,
      fun hentering => by cases hthread.symm.trans hentering⟩
  · rw [IoContext.workFinished_of_not_idle hidle]
    exact h.context rfl (fun hrun => hrun) (fun hrun => hrun) fun hentering => by cases hthread.symm.trans hentering

variable [DecidableEq O]

/-- Only the step of the thread that runs a handler can leave no work. -/
theorem step_of_ne {e : SessionEvent O H} (hen : s.enabled e) (ht : s.next e = .ok t) (hne : e ≠ .thread .handle []) :
    (machine.when KeepsWork).Step s e t :=
  ⟨⟨hen, fun _ heq => absurd heq hne⟩, ht⟩

theorem Inv.step {e : SessionEvent O H} (h : Inv (SessionEvent.calls as) s) (hstep : (machine.when KeepsWork).Step s e t) :
    Inv (SessionEvent.calls (as ++ [e])) t := by
  rw [calls_append]
  obtain ⟨⟨hen, hkeeps⟩, ht⟩ := hstep
  cases e with
  | call c begun =>
    cases c with
    | opens ok =>
      obtain ⟨hphase, hbegun⟩ : s.phase = .closed ∧ (ok = true → begun ≠ []) := hen
      have hne : s.phase ≠ .stopping := hphase ▸ nofun
      have hmem : .closes ∈ SessionEvent.calls as ++ [.opens ok] ↔ .closes ∈ SessionEvent.calls as := by simp
      cases ok with
      | true =>
        simp only [machine, Machine.when, next, IoContext.start] at ht
        split at ht
        · cases ht
          refine ⟨fun hs => hmem.mpr (h.closed hs), nofun, fun hc _ => h.stopped (hmem.mp hc) hne, fun _ _ => .inl rfl,
            fun _ => ⟨_, rfl⟩, fun _ => .inl rfl, ?_⟩
          rintro - ⟨hpending, _⟩
          exact hbegun rfl (List.append_eq_nil_iff.mp hpending).2
        · cases ht
      | false =>
        cases ht
        refine ⟨fun hs => hmem.mpr (h.closed hs), nofun, fun hc _ => h.stopped (hmem.mp hc) hne, nofun, nofun, ?_, ?_⟩
        · intro hrun
          refine .inr (hmem.mpr ((h.running hrun).resolve_left ?_))
          rw [hphase]
          nofun
        · rintro hentering ⟨hpending, hready⟩
          exact h.work hentering ⟨(List.append_eq_nil_iff.mp hpending).1, hready⟩
    | closes =>
      cases ht
      have hmem : .closes ∈ SessionEvent.calls as ++ [.closes] := List.mem_append_right _ (List.mem_singleton_self _)
      exact ⟨fun _ => hmem, fun _ => hmem, fun _ hne => absurd rfl hne, nofun, nofun, fun _ => .inr hmem, h.work⟩
  | stop =>
    cases ht
    have hmem := h.stopping hen
    rw [show SessionEvent.calls [.stop] = ([] : List Call) from rfl, List.append_nil]
    exact ⟨fun _ => hmem, nofun, fun _ _ => rfl, nofun, nofun, fun _ => .inr hmem, h.work⟩
  | join =>
    cases ht
    have hne : s.phase ≠ .stopping := hen.1 ▸ nofun
    rw [show SessionEvent.calls [.join] = ([] : List Call) from rfl, List.append_nil]
    exact ⟨h.closed, nofun, fun hc _ => h.stopped hc hne, nofun, nofun, fun hrun => by simp [IoContext.join] at hrun, nofun⟩
  | post a =>
    cases ht
    rw [show SessionEvent.calls [.post a] = ([] : List Call) from rfl, List.append_nil]
    exact h.context rfl (fun hrun => hrun) (fun hrun => hrun) fun _ hidle => by simp [IoContext.Idle, IoContext.post] at hidle
  | complete o a =>
    cases ht
    rw [show SessionEvent.calls [.complete o a] = ([] : List Call) from rfl, List.append_nil]
    exact h.context rfl (fun hrun => hrun) (fun hrun => hrun) fun _ hidle => by
      simp [IoContext.Idle, IoContext.complete] at hidle
  | thread e begun =>
    cases ht
    rw [show SessionEvent.calls [.thread e begun] = ([] : List Call) from rfl, List.append_nil]
    cases e with
    | enter =>
      have hbusy : ¬{ s.context with thread := some .looping }.Idle := h.work hen.1
      simp only [IoContext.next, IoContext.workFinished_of_not_idle hbusy]
      exact h.context rfl (fun _ => .inr rfl) (fun _ => .inl hen.1) nofun
    | handle => exact h.handle hen hkeeps
    | leave =>
      have hmem := h.closed hen.2
      have hset : s.context.stopped = true := hen.2
      exact {
        closed := fun _ => hmem
        stopping := h.stopping
        stopped := h.stopped
        thread := fun _ hs => by cases hset.symm.trans hs
        last := h.last
        running := fun _ => .inr hmem
        work := nofun }

/-- In a session in which work is always left the context serves exactly when none was closed before; the last call was the one
that opened it. -/
theorem opened_spec [Nonempty H] (h : Run (machine.when KeepsWork) {} as s) (hopened : s.phase = .opened) :
    (s.context.Serves ↔ .closes ∉ SessionEvent.calls as) ∧ ∃ cs, SessionEvent.calls as = cs ++ [.opens true] := by
  have hinv : Inv (SessionEvent.calls as) s := by
    refine h.invariant (fun as s => Inv (SessionEvent.calls as) s) inv_new ?_
    intro as t e u ht hstep
    exact ht.step hstep
  have hphase : s.phase ≠ .stopping := hopened ▸ nofun
  refine ⟨?_, hinv.last hopened⟩
  rw [IoContext.serves_iff]
  constructor
  · rintro ⟨hs, _⟩ hmem
    rw [hinv.stopped hmem hphase] at hs
    cases hs
  · intro hmem
    have hs : s.context.stopped = false := Bool.eq_false_iff.mpr fun hs => hmem (hinv.closed hs)
    exact ⟨hs, hinv.thread hopened hs⟩

end

end Session

/-! ## Machines with sessions -/

section Restartable

variable {ε σ ι : Type} (M : Machine ε σ ι) (start : σ) (InSession Serves : σ → Prop)

/-- After every part of a run that ends in a session, the session is served. -/
def Restartable (events : List ι) : Prop :=
  ∀ before after s, events = before ++ after → Run M start before s → InSession s → Serves s

variable {M start InSession Serves} {call : ι → Option Call} {keeps : σ → ι → Prop}

/-- A machine whose sessions are served, as long as its steps keep work, exactly when none was closed before: a run is
restartable exactly when it never opens one after that and all its steps keep work. -/
theorem restartable_iff
    (hsession : ∀ es s, Run (M.when keeps) start es s → InSession s →
      (Serves s ↔ .closes ∉ es.filterMap call) ∧ ∃ cs, es.filterMap call = cs ++ [.opens true])
    (hopens : ∀ s e t, M.Step s e t → call e = some (.opens true) → InSession t)
    (hkeeps : ∀ s e t, M.Step s e t → ¬keeps s e → InSession t ∧ ¬Serves t) {events : List ι} {t : σ}
    (h : Run M start events t) :
    Restartable M start InSession Serves events ↔
      NeverReopened (events.filterMap call) ∧ Run (M.when keeps) start events t := by
  constructor
  · induction h with
    | nil => exact fun _ => ⟨.nil, .nil⟩
    | @snoc es s e t run step ih =>
      intro hserves
      have hlast : InSession t → Serves t := hserves (es ++ [e]) [] t (List.append_nil _).symm (.snoc run step)
      obtain ⟨hbefore, hlasts⟩ : NeverReopened (es.filterMap call) ∧ Run (M.when keeps) start es s :=
        ih fun before after u heq => hserves before (after ++ [e]) u (by rw [heq, List.append_assoc])
      have hkept : keeps s e := by
        by_contra hnot
        obtain ⟨hin, hidle⟩ := hkeeps s e t step hnot
        exact hidle (hlast hin)
      have hall : Run (M.when keeps) start (es ++ [e]) t := .snoc hlasts ⟨⟨step.1, hkept⟩, step.2⟩
      refine ⟨?_, hall⟩
      rw [List.filterMap_append]
      refine List.pairwise_append.mpr ⟨hbefore, ?_, ?_⟩
      · cases hc : call e <;> simp [List.filterMap, hc]
      · rintro c hc d hd rfl rfl
        have hcall : call e = some (.opens true) := by
          rw [List.filterMap_cons, List.filterMap_nil] at hd
          cases he : call e <;> simp_all
        have hin := hopens s e t step hcall
        have hnot := (hsession _ t hall hin).1.mp (hlast hin)
        exact hnot (by rw [List.filterMap_append]; exact List.mem_append_left _ hc)
  · rintro ⟨hnever, hall⟩ before after s rfl hrun hin
    obtain ⟨s', hrun', _⟩ := hall.split
    obtain rfl := hrun.unique hrun'.of_when
    obtain ⟨hiff, cs, hcs⟩ := hsession before s hrun' hin
    refine hiff.mpr fun hmem => ?_
    rw [List.filterMap_append] at hnever
    have hbefore := (List.pairwise_append.mp hnever).1
    rw [hcs] at hbefore hmem
    have hlast := (List.pairwise_append.mp hbefore).2.2
    rcases List.mem_append.mp hmem with hmem | hmem
    · exact hlast _ hmem _ (List.mem_singleton_self _) rfl rfl
    · simp at hmem

end Restartable

end Netzwerk
