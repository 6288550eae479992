import BackupEngine.Lemmas.Channel
import BackupEngine.Lemmas.ServerCallbacks
import BackupEngine.Netzwerk.ServerSends
import BackupEngine.Theorems.PendingOwners

/-!
# What one step of the server does to a connection

A step of either thread takes no more than one step with the writing half of a connection: it runs a posted `Send`, or what an
outstanding write does, or nothing. What is posted for the connection grows by the `Send`s the step calls on it.
-/

namespace Netzwerk

open Cpp Transition Connection

variable {T : Type}

/-! ## What is seen -/

theorem sendsTo_append (c : ConnPtr) (ws vs : List (Sending T)) : sendsTo c (ws ++ vs) = sendsTo c ws ++ sendsTo c vs :=
  List.filterMap_append

theorem toAlls_append (ws vs : List (Sending T)) : toAlls (ws ++ vs) = toAlls ws ++ toAlls vs := List.filterMap_append

namespace ServerThreads

variable {s t : ServerThreads T} {rest : List (Frame T)} {toSend : Message T}

/-- Every `Send` of a step is posted behind the others. -/
theorem frame_posted {frame : Frame T} (h : s.frameStep rest toSend frame = .ok t) (c : ConnPtr) :
    t.postedTo c = s.postedTo c ++ sendsTo c (s.frameSends toSend frame) := by
  have hsend : ∀ client msg, (s.send client msg).postedTo c = s.postedTo c ++ sendsTo c (seeSend client msg) := by
    intro client msg
    rw [postedTo, send, List.filterMap_append]
    refine congrArg _ ?_
    cases client with
    | none => rfl
    | some d => by_cases hdc : d = c <;> simp [sendsTo, seeSend, hdc]
  have hquiet : ∀ u : ServerThreads T, u.posted = s.posted → ∀ ws, sendsTo c ws = [] →
      u.postedTo c = s.postedTo c ++ sendsTo c ws := by
    intro u hu ws hws
    rw [hws, List.append_nil, postedTo, hu]
    rfl
  cases frameStep_ok h with
  | @clientSent client msg hconn | @groupSent msg _ _ client _ hconn =>
    rw [frameSends, if_pos hconn]
    exact hsend client msg
  | clientGone hconn | groupGone hconn =>
    rw [frameSends, if_neg (Bool.not_eq_true _ ▸ hconn)]
    exact hquiet _ rfl _ rfl
  | allIgnored hi hclient =>
    rw [frameSends, if_pos hi, hclient, Option.toList_some, List.flatMap_singleton, if_neg (·.1 rfl)]
    exact hquiet _ rfl _ rfl
  | @allSent msg _ client _ _ hi hclient hne hconn =>
    rw [frameSends, if_pos hi, hclient, Option.toList_some, List.flatMap_singleton, if_pos ⟨hne, hconn⟩]
    exact hsend client msg
  | allGone hi hclient hne hconn =>
    rw [frameSends, if_pos hi, hclient, Option.toList_some, List.flatMap_singleton, if_neg fun h => by simp [hconn] at h]
    exact hquiet _ rfl _ rfl
  | allErased hi | allDone hi =>
    rw [frameSends, if_neg hi]
    exact hquiet _ rfl _ rfl
  | _ => exact hquiet _ rfl _ rfl

end ServerThreads

/-! ## One connection -/

/-- What the writing half works with is the same; the socket may have been closed. -/
structure Connection.SameWriter (c c' : Connection T) : Prop where
  queue : c'.qMessagesOut = c.qMessagesOut
  popped : c'.popped = c.popped
  writes : c'.writes = c.writes
  written : c'.written = c.written
  isOpen : c.isOpen = false → c'.isOpen = false

theorem Connection.SameWriter.refl (c : Connection T) : c.SameWriter c := ⟨rfl, rfl, rfl, rfl, fun h => h⟩

theorem Connection.readDone_writer {c c' : Connection T} {part : Part} {bytes : List UInt8}
    {owned : Option (OwnedMessage T)} [StandardLayout (MessageHeader T)] (h : c.readDone part bytes = .ok (c', owned)) :
    c.SameWriter c' := by
  cases part with
  | header =>
    simp only [readDone, headerRead] at h
    split at h
    · obtain ⟨_, _, h⟩ := Cpp.bind_eq_ok.mp h
      cases h
      exact ⟨rfl, rfl, rfl, rfl, fun hclosed => hclosed⟩
    · cases h
      exact ⟨rfl, rfl, rfl, rfl, fun hclosed => hclosed⟩
  | body =>
    cases h
    exact ⟨rfl, rfl, rfl, rfl, fun hclosed => hclosed⟩

/-- Reading leaves the writing half alone. -/
theorem Connection.readNext_writer [StandardLayout (MessageHeader T)] {c c' : Connection T} {e : ReadEvent}
    (he : e.OfSocket) {owned : Option (OwnedMessage T)} (h : c.readNext e = .ok (c', owned)) : c.SameWriter c' := by
  cases e with
  | connectToClient uid => exact he.elim
  | done bytes =>
    cases hreads : c.reads with
    | none =>
      simp only [readNext, hreads] at h
      cases h
      exact ⟨rfl, rfl, rfl, rfl, fun hclosed => hclosed⟩
    | some r =>
      simp only [readNext, hreads] at h
      exact readDone_writer h
  | fail =>
    cases h
    exact ⟨rfl, rfl, rfl, rfl, fun _ => rfl⟩

/-- Where the writing half is does not change while it does nothing. -/
theorem Connection.Halfway.of_sameWriter [StandardLayout (MessageHeader T)] {c c' : Connection T} {ran : List (Message T)}
    (h : c.Halfway ran) (hsame : c.SameWriter c') : c'.Halfway ran := by
  obtain ⟨hqueue, hpopped, hwrites, hwritten, hopen⟩ := hsame
  rcases h with (hidle | ⟨pre, m, rest, part, done, hbusy⟩) | ⟨hclosed, pre, m, rest, hstop⟩
  · exact .inl (.inl ⟨hqueue.trans hidle.queue, hwrites.trans hidle.writes, hpopped.trans hidle.popped,
      hwritten.trans hidle.written⟩)
  · exact .inl (.inr ⟨pre, m, rest, part, done, hbusy.sent_eq, hqueue.trans hbusy.queue, hpopped.trans hbusy.popped,
      hwrites.trans hbusy.writes, hbusy.done_le, hwritten.trans hbusy.written, hbusy.body⟩)
  · exact .inr ⟨hopen hclosed, pre, m, rest, hstop.sent_eq, hqueue.trans hstop.queue, hpopped.trans hstop.popped,
      hwrites.trans hstop.writes, hwritten ▸ hstop.written⟩

/-- The messages sent that have not left the queue are in it. -/
theorem Connection.Halfway.drop_popped [StandardLayout (MessageHeader T)] {c : Connection T} {ran : List (Message T)}
    (h : c.Halfway ran) : c.popped ≤ ran.length ∧ ran.drop c.popped = c.qMessagesOut := by
  rcases h with (hidle | ⟨pre, m, rest, part, done, hbusy⟩) | ⟨_, pre, m, rest, hstop⟩
  · rw [hidle.popped, hidle.queue]
    exact ⟨Nat.le_refl _, List.drop_length⟩
  · rw [hbusy.popped, hbusy.queue, hbusy.sent_eq]
    exact ⟨by simp, List.drop_left⟩
  · rw [hstop.popped, hstop.queue, hstop.sent_eq]
    exact ⟨by simp, List.drop_left⟩

/-! ## All connections -/

namespace ServerThreads

/-- The connections that were made know themselves, and nothing points to any other. -/
structure Known (s : ServerThreads T) : Prop where
  identity : ∀ c < s.made, (s.conns c).remote = some c
  owned : ∀ c, s.Owned c → c < s.made
  posted : ∀ p ∈ s.posted, p.1 < s.made

/-- Of the messages posted for a connection and those it is sent, a step runs the handler of one or of none. -/
inductive ConnStep [StandardLayout (MessageHeader T)] (s t : ServerThreads T) (c : ConnPtr) (given : List (Message T)) : Prop
  | same (writer : (s.conns c).SameWriter (t.conns c)) (posted : t.postedTo c = s.postedTo c ++ given)
  | write (e : WriteEvent T) (step : writer.Step (s.conns c) e (t.conns c))
    (posted : s.postedTo c ++ given = sends [e] ++ t.postedTo c)

/-- What a step of either thread does, with what is seen of it. -/
structure ServerStep [StandardLayout (MessageHeader T)] (s t : ServerThreads T) (vs : List (Sending T)) : Prop where
  known : t.Known
  made_le : s.made ≤ t.made
  conn : ∀ c < s.made, ConnStep s t c (sendsTo c vs)
  unmade : ∀ c, s.made ≤ c → sendsTo c vs = []
  new : ∀ c, s.made ≤ c → c < t.made → Connection.Idle [] (t.conns c) ∧ t.postedTo c = []

variable [StandardLayout (MessageHeader T)] {s t : ServerThreads T}

omit [StandardLayout (MessageHeader T)] in
/-- Nothing is posted for a connection that was not made. -/
theorem Known.postedTo_eq_nil (h : s.Known) {c : ConnPtr} (hc : s.made ≤ c) : s.postedTo c = [] := by
  refine List.filterMap_eq_nil_iff.mpr fun p hp => ?_
  have hlt := h.posted p hp
  rw [if_neg]
  rintro rfl
  exact absurd hc (Nat.not_le.mpr hlt)

/-- A step that makes no connection. -/
theorem ServerStep.of_made (hknown : t.Known) (hmade : t.made = s.made) {vs : List (Sending T)}
    (hconn : ∀ c < s.made, ConnStep s t c (sendsTo c vs)) (hunmade : ∀ c, s.made ≤ c → sendsTo c vs = []) :
    ServerStep s t vs :=
  ⟨hknown, hmade ▸ Nat.le_refl _, hconn, hunmade, fun _ hc hlt => absurd hlt (hmade ▸ Nat.not_lt.mpr hc)⟩

/-- Something is done with the connection `c`, and what is posted for the others stays. -/
theorem Known.onConnection (h : s.Known) (posted : List (ConnPtr × Message T)) {c : ConnPtr}
    {f : Connection T → Comp (Connection T × Option (OwnedMessage T))} (hposted : ∀ p ∈ posted, p ∈ s.posted)
    (hothers : ∀ d, d ≠ c → postedTo { s with posted := posted } d = s.postedTo d)
    (hreads : ∀ conn owned, f (s.conns c) = .ok (conn, owned) → (s.conns c).ReadsOn conn owned)
    (hown : ∀ conn owned, f (s.conns c) = .ok (conn, owned) →
      ((s.conns c).SameWriter conn ∧ postedTo { s with posted := posted } c = s.postedTo c) ∨
        ∃ e, writer.Step (s.conns c) e conn ∧ s.postedTo c = sends [e] ++ postedTo { s with posted := posted } c)
    (ht : ServerThreads.onConnection { s with posted := posted } c f = .ok t) : ServerStep s t [] := by
  have hc : c < s.made := by
    unfold ServerThreads.onConnection at ht
    split at ht
    · rename_i hown
      exact h.owned c hown
    · cases ht
  obtain ⟨conn, owned, hconn, rfl⟩ := onConnection_ok ht
  have hreads := hreads conn owned hconn
  refine .of_made ⟨fun d hd => ?_, fun d hd => ?_, fun p hp => ?_⟩ ?_ (fun d hd => ?_) fun _ _ => ?_
  · by_cases hdc : d = c
    · subst hdc
      simp only [Function.update_self]
      rw [remote, hreads.self, hreads.nOwnerType]
      exact h.identity d hd
    · simp only [Function.update_of_ne hdc]
      exact h.identity d hd
  · simp only [Owned, owners, List.map_append, List.mem_append] at hd
    have hold : d < s.made ∨ some d ∈ owned.toList.map (·.remote) := by
      rcases hd with ((hd | hd | hd) | hd) | hd
      · exact .inl (h.owned d (by simp only [Owned, owners, List.mem_append]; tauto))
      · exact .inl (h.owned d (by simp only [Owned, owners, List.mem_append]; tauto))
      · exact .inr hd
      · exact .inl (h.owned d (by simp only [Owned, owners, List.mem_append]; tauto))
      · exact .inl (h.owned d (by simp only [Owned, owners, List.mem_append]; tauto))
    rcases hold with hold | hd
    · exact hold
    · obtain ⟨o, ho, hremote⟩ := List.mem_map.mp hd
      obtain ⟨_, hof⟩ := hreads.owned o (Option.mem_toList.mp ho)
      rw [h.identity c hc, hremote] at hof
      cases hof
      exact hc
  · exact h.posted p (hposted p hp)
  · rfl
  · by_cases hdc : d = c
    · subst hdc
      rcases hown conn owned hconn with ⟨hsame, hposted⟩ | ⟨e, hstep, hposted⟩
      · refine .same ?_ ((List.append_nil _).symm ▸ hposted)
        simpa using hsame
      · refine .write e ?_ ((List.append_nil _).trans hposted)
        simpa using hstep
    · refine .same ?_ ((List.append_nil _).symm ▸ hothers d hdc)
      simp only [Function.update_of_ne hdc]
      exact .refl _
  · rfl

/-- The next step of a call posts the `Send`s that are seen. -/
theorem Known.frame {frame : Frame T} {rest : List (Frame T)} {toSend : Message T} (h : s.Known)
    (hframes : s.frames = frame :: rest) (ht : s.frameStep rest toSend frame = .ok t) :
    ServerStep s t (s.frameSends toSend frame) := by
  have heffect := frame_effect hframes ht
  have hmade := (frame_calls ht).made
  have hgrows : ∀ c, t.Owned c → s.Owned c := by
    intro c hc
    have hcount := heffect.owners c
    rw [owned_iff_count] at hc ⊢
    omega
  have hknown : t.Known := by
    refine ⟨fun c hc => ?_, fun c hc => hmade ▸ h.owned c (hgrows c hc), fun p hp => ?_⟩
    · rw [heffect.conns]
      exact h.identity c (hmade ▸ hc)
    · obtain ⟨sent, hposted, hsent⟩ := heffect.posted
      rw [hposted, List.mem_append] at hp
      rcases hp with hp | hp
      · exact hmade ▸ h.posted p hp
      · exact hmade ▸ h.owned _ (hgrows _ (hsent p hp))
  refine .of_made hknown hmade (fun c hc => .same ?_ (frame_posted ht c)) fun c hc => ?_
  · rw [heffect.conns]
    exact .refl _
  · have hnone := hknown.postedTo_eq_nil (hmade ▸ hc)
    rw [frame_posted ht, List.append_eq_nil_iff] at hnone
    exact hnone.2

/-- A connection is accepted: it has written nothing, and nothing is posted for it. -/
theorem Known.accept (h : s.Known) (msgTemporaryIn : Message T) (request keep : Bool) :
    ServerStep s (s.accept msgTemporaryIn request keep) [] := by
  have hmade : (s.accept msgTemporaryIn request keep).made = s.made + 1 := by
    cases request <;> rfl
  have hposted : (s.accept msgTemporaryIn request keep).posted = s.posted := by
    cases request <;> rfl
  have hself : ((s.accept msgTemporaryIn request keep).conns s.made).remote = some s.made := by
    cases request <;> simp [ServerThreads.accept, remote, connectToClient, readHeader]
  have hidle : Connection.Idle [] ((s.accept msgTemporaryIn request keep).conns s.made) := by
    cases request <;> simp only [ServerThreads.accept, if_true, if_false, Bool.false_eq_true, Function.update_self] <;>
      exact ⟨rfl, rfl, rfl, rfl⟩
  have hothers : ∀ c < s.made, (s.accept msgTemporaryIn request keep).conns c = s.conns c := by
    intro c hc
    cases request <;> simp [ServerThreads.accept, Function.update_of_ne (Nat.ne_of_lt hc)]
  have howners : ∀ c, (s.accept msgTemporaryIn request keep).Owned c → s.Owned c ∨ c = s.made := by
    intro c hc
    simp only [Owned, owners, List.mem_append] at hc ⊢
    cases request <;> cases keep <;>
      simp only [ServerThreads.accept, if_true, if_false, Bool.false_eq_true, List.mem_append, List.mem_singleton,
        Option.some.injEq] at hc <;>
      tauto
  have hcases : ∀ c, c < s.made + 1 → c < s.made ∨ c = s.made := fun c hc => Nat.lt_or_eq_of_le (Nat.le_of_lt_succ hc)
  have hpostedTo : ∀ c, (s.accept msgTemporaryIn request keep).postedTo c = s.postedTo c :=
    fun c => by rw [postedTo, hposted, postedTo]
  refine ⟨⟨fun c hc => ?_, fun c hc => ?_, fun p hp => ?_⟩, hmade ▸ Nat.le_succ _, fun c hc => ?_, fun _ _ => rfl,
    fun c hc hlt => ?_⟩
  · rcases hcases c (hmade ▸ hc) with hc | rfl
    · rw [hothers c hc]
      exact h.identity c hc
    · exact hself
  · rw [hmade]
    rcases howners c hc with hc | rfl
    · exact Nat.lt_succ_of_lt (h.owned c hc)
    · exact Nat.lt_succ_self _
  · rw [hmade]
    exact Nat.lt_succ_of_lt (h.posted p (hposted ▸ hp))
  · refine .same ?_ ((List.append_nil _).symm ▸ hpostedTo c)
    rw [hothers c hc]
    exact .refl _
  · obtain rfl : c = s.made := (hcases c (hmade ▸ hlt)).resolve_left (Nat.not_lt.mpr hc)
    exact ⟨hidle, (hpostedTo _).trans (h.postedTo_eq_nil hc)⟩

/-- Every event. -/
theorem Known.step (h : s.Known) {e : ServerThreadEvent T} (hstep : machine.Step s e t) : ServerStep s t (s.sending e) := by
  obtain ⟨hen, ht⟩ := hstep
  have hsame : ∀ {u : ServerThreads T}, u.conns = s.conns → u.made = s.made → u.posted = s.posted →
      (∀ c, u.Owned c → s.Owned c) → ∀ vs, (∀ c, sendsTo c vs = []) → ServerStep s u vs := by
    intro u hconns hmade hposted howned vs hvs
    refine .of_made ⟨fun c hc => ?_, fun c hc => hmade ▸ h.owned c (howned c hc), fun p hp => ?_⟩ hmade (fun c hc => ?_)
      fun c _ => hvs c
    · rw [hconns]
      exact h.identity c (hmade ▸ hc)
    · rw [hmade]
      exact h.posted p (hposted ▸ hp)
    · refine .same (hconns ▸ .refl _) ?_
      rw [hvs, List.append_nil, postedTo, hposted, postedTo]
  cases e with
  | accepted msg request keep =>
    cases ht
    exact h.accept msg request keep
  | write c e =>
    simp only [machine, next] at ht
    refine h.onConnection s.posted (fun p hp => hp) (fun _ _ => rfl) (fun conn owned hf => ?_)
      (fun conn owned hf => .inr ⟨e, ?_⟩) ht
    · obtain ⟨conn', hconn, hr⟩ := Cpp.bind_eq_ok.mp hf
      cases hr
      exact (Connection.writeNext_reader hconn).readsOn
    · obtain ⟨conn', hconn, hr⟩ := Cpp.bind_eq_ok.mp hf
      cases hr
      refine ⟨⟨hen.2, hconn⟩, ?_⟩
      cases e with
      | send msg => exact hen.1.elim
      | _ => rfl
  | read c e =>
    simp only [machine, next] at ht
    exact h.onConnection s.posted (fun p hp => hp) (fun _ _ => rfl)
      (fun conn owned hf => Connection.readNext_readsOn hen.1 hf)
      (fun conn owned hf => .inl ⟨Connection.readNext_writer hen.1 hf, rfl⟩) ht
  | posted =>
    simp only [machine, next] at ht
    obtain ⟨⟨c, msg⟩, posted, hposted⟩ := List.exists_cons_of_ne_nil (show s.posted ≠ [] from hen)
    rw [hposted] at ht
    have hothers : ∀ d, d ≠ c → postedTo { s with posted := posted } d = s.postedTo d := by
      intro d hdc
      simp [postedTo, hposted, hdc.symm]
    have hown : s.postedTo c = msg :: postedTo { s with posted := posted } c := by
      simp [postedTo, hposted]
    refine h.onConnection _ (fun p hp => hposted ▸ List.mem_cons_of_mem _ hp) hothers (fun conn owned hf => ?_)
      (fun conn owned hf => .inr ⟨.send msg, ?_⟩) ht
    · obtain ⟨conn', hconn, hr⟩ := Cpp.bind_eq_ok.mp hf
      cases hr
      exact (Connection.send_reader hconn).readsOn
    · obtain ⟨conn', hconn, hr⟩ := Cpp.bind_eq_ok.mp hf
      cases hr
      exact ⟨⟨trivial, hconn⟩, hown⟩
  | call call =>
    have hpointers : ∀ c, some c ∈ call.pointers → s.Owned c := hen.2
    cases call <;> cases ht <;> refine hsame ?_ ?_ ?_ (fun c hc => ?_) _ fun c => ?_ <;> first | rfl | skip
    all_goals
      simp only [Owned, owners, List.mem_append, List.flatMap_cons, Frame.owners, MessageCall.pointers, List.nil_append]
        at hc hpointers ⊢
      have := hpointers c
      tauto
  | update nMaxMessages =>
    cases ht
    refine hsame ?_ ?_ ?_ (fun c hc => ?_) _ fun c => ?_ <;> first | rfl | exact hc
  | run toSend =>
    obtain ⟨frame, rest, hframes⟩ := List.exists_cons_of_ne_nil (show s.frames ≠ [] from hen)
    simp only [machine, next, hframes] at ht
    simp only [sending, hframes, List.head?_cons, Option.map_some, Option.getD_some]
    exact h.frame hframes ht
  | hold c =>
    cases ht
    refine hsame ?_ ?_ ?_ (fun d hd => ?_) _ fun d => ?_ <;> first | rfl | skip
    have hc : s.Owned c := hen.2
    simp only [Owned, owners, List.mem_append, List.mem_singleton, Option.some.injEq] at hd hc ⊢
    rcases hd with (hd | hd | rfl) | hd <;> tauto
  | letGo i =>
    cases ht
    refine hsame ?_ ?_ ?_ (fun d hd => ?_) _ fun d => ?_ <;> first | rfl | skip
    simp only [Owned, owners, List.mem_append] at hd ⊢
    rcases hd with (hd | hd) | hd
    · tauto
    · exact .inl (.inr (List.mem_of_mem_eraseIdx hd))
    · tauto

omit [StandardLayout (MessageHeader T)] in
/-- A server that has just been made. -/
theorem known_start {conns : ConnPtr → Connection T} : Known ({ conns } : ServerThreads T) :=
  ⟨fun _ hc => absurd hc (Nat.not_lt_zero _), nofun, nofun⟩

end ServerThreads

end Netzwerk
