import BackupEngine.Lemmas.ServerThreads
import BackupEngine.Theorems.Delivery

/-!
# What is pending has an owner

A handler or a posted `Send` keeps its connection only as long as something else owns it. The thread of the io_context gives
no pointer up, so whether every connection with something pending has an owner depends on the pointers the other thread gives
up: where a Message function resets one, where a call returns, and behind `OnMessage`.
-/

namespace Netzwerk

open Cpp Transition

variable {T : Type}

namespace ServerThreads

/-- The pointers the next step of a call gives up. -/
def framePointers (s : ServerThreads T) : Frame T → List (Option ConnPtr)
  | .client client _ => if s.isConnected client then [] else [client]
  | .group _ _ (client :: _) _ => if s.isConnected client then [] else [client]
  | .group _ _ [] _ => []
  | .all _ pIgnoreClient i size _ =>
    if i < size then s.deqConnections[i]?.toList.filter fun client => client ≠ pIgnoreClient ∧ s.isConnected client = false
    else []
  | .after (_ :: _) _ => []
  | .after [] pointers => pointers
  | .update _ _ => []
  | .onMessage msg _ _ => [msg.remote]

/-- The pointers an event gives up. -/
def pointersGivenUp (s : ServerThreads T) : ServerThreadEvent T → List (Option ConnPtr)
  | .run _ => (s.frames.head?.map s.framePointers).getD []
  | .letGo i => s.held[i]?.toList
  | _ => []

/-- No connection with something pending loses its last owner: of the pointers to it there are more than the event gives
up. -/
def Spares (s : ServerThreads T) (e : ServerThreadEvent T) : Prop :=
  ∀ c, s.Pending c → some c ∈ s.pointersGivenUp e → (s.pointersGivenUp e).count (some c) < s.owners.count (some c)

instance (s : ServerThreads T) (c : ConnPtr) : Decidable (s.Pending c) := inferInstanceAs (Decidable (_ ∨ _ ∨ _))

/-- Only the pointers given up need to be counted. -/
instance (s : ServerThreads T) (e : ServerThreadEvent T) : Decidable (s.Spares e) :=
  decidable_of_iff (∀ p ∈ s.pointersGivenUp e, ∀ c ∈ p, s.Pending c →
      (s.pointersGivenUp e).count (some c) < s.owners.count (some c))
    ⟨fun h c hc hmem => h _ hmem c rfl hc, fun h _ hp c hc hpending => h c hpending (hc ▸ hp)⟩

/-- Every connection with something pending has an owner. -/
def PendingOwned (s : ServerThreads T) : Prop := ∀ c, s.Pending c → s.Owned c

/-! ## The steps of a call -/

/-- What a step of a call does to the pointers and to what is pending: it gives up the pointers named above and no other, it
leaves the connections as they are, and the connections it posts a `Send` for have an owner behind it. -/
structure FrameEffect (s t : ServerThreads T) (frame : Frame T) : Prop where
  conns : t.conns = s.conns
  posted : ∃ sent, t.posted = s.posted ++ sent ∧ ∀ p ∈ sent, t.Owned p.1
  owners : ∀ c, t.owners.count (some c) + (s.framePointers frame).count (some c) = s.owners.count (some c)

section

variable {s t : ServerThreads T} {rest : List (Frame T)} {toSend : Message T}

theorem count_owners (s : ServerThreads T) (c : ConnPtr) :
    s.owners.count (some c) = s.deqConnections.count (some c) + (s.qMessagesIn.map (·.remote)).count (some c) +
      s.held.count (some c) + (s.frames.flatMap Frame.owners).count (some c) := by
  simp only [owners, List.count_append]

/-- A step that posts nothing. -/
theorem FrameEffect.of_quiet {frame : Frame T} (hconns : t.conns = s.conns) (hposted : t.posted = s.posted)
    (howners : ∀ c, t.owners.count (some c) + (s.framePointers frame).count (some c) = s.owners.count (some c)) :
    FrameEffect s t frame := ⟨hconns, ⟨[], by rw [hposted, List.append_nil], nofun⟩, howners⟩

/-- A step that posts a `Send` for a pointer it keeps. -/
theorem FrameEffect.of_send {frame : Frame T} {client : Option ConnPtr} {msg : Message T} (hconns : t.conns = s.conns)
    (hposted : t.posted = (s.send client msg).posted) (hclient : client ∈ t.owners)
    (howners : ∀ c, t.owners.count (some c) + (s.framePointers frame).count (some c) = s.owners.count (some c)) :
    FrameEffect s t frame := by
  refine ⟨hconns, ⟨_, hposted, ?_⟩, howners⟩
  intro p hp
  obtain ⟨q, rfl, rfl⟩ := Option.map_eq_some_iff.mp (Option.mem_toList.mp hp)
  exact hclient

/-- Erasing the null pointers takes no pointer to a connection away. -/
theorem count_eraseNull (s : ServerThreads T) (c : ConnPtr) :
    s.eraseNull.deqConnections.count (some c) = s.deqConnections.count (some c) := List.count_filter (by simp)

/-- Resetting an element of the deque takes the pointer in it away. -/
theorem count_set_none {l : List (Option ConnPtr)} {i : Nat} {client : Option ConnPtr} (h : l[i]? = some client)
    (c : ConnPtr) : (l.set i none).count (some c) + [client].count (some c) = l.count (some c) := by
  obtain ⟨hi, hclient⟩ := List.getElem?_eq_some_iff.mp h
  have hpos : client = some c → 0 < l.count (some c) :=
    fun heq => List.count_pos_iff.mpr (heq ▸ hclient ▸ List.getElem_mem hi)
  rw [List.count_set hi, hclient, List.count_singleton]
  by_cases heq : client = some c
  · have := hpos heq
    simp only [heq, beq_self_eq_true, if_true]
    simp
    omega
  · simp [heq]

/-- The next step of a call. -/
theorem frame_effect {frame : Frame T} (hframes : s.frames = frame :: rest) (h : s.frameStep rest toSend frame = .ok t) :
    FrameEffect s t frame := by
  cases frameStep_ok h with
  | clientSent hconn | groupSent hconn =>
    refine .of_send rfl rfl (by simp [owners, Frame.owners]) fun c => ?_
    simp [count_owners, framePointers, hconn, hframes, Frame.owners, send]
  | clientGone hconn =>
    refine .of_quiet rfl rfl fun c => ?_
    simp only [count_owners, framePointers, hconn, hframes, List.flatMap_cons, Frame.owners, List.count_append,
      count_eraseNull]
    simp [eraseNull]
    omega
  | groupGone hconn =>
    refine .of_quiet rfl rfl fun c => ?_
    simp [count_owners, framePointers, hconn, hframes, Frame.owners, List.count_cons]
    omega
  | groupErased =>
    refine .of_quiet rfl rfl fun c => ?_
    simp only [count_owners, count_eraseNull]
    simp [framePointers, hframes, Frame.owners, eraseNull]
  | groupDone | afterNext =>
    refine .of_quiet rfl rfl fun c => ?_
    simp [count_owners, framePointers, hframes, Frame.owners]
  | allIgnored hi hclient =>
    refine .of_quiet rfl rfl fun c => ?_
    simp [count_owners, framePointers, hclient, hframes, Frame.owners]
  | allSent hi hclient hne hconn =>
    refine .of_send rfl rfl ?_ fun c => ?_
    · exact List.mem_append_left _ (List.mem_append_left _ (List.mem_append_left _ (List.mem_of_getElem? hclient)))
    · simp [count_owners, framePointers, hclient, hconn, hframes, Frame.owners, send]
  | @allGone msg ign client i after hi hclient hne hconn =>
    refine .of_quiet rfl rfl fun c => ?_
    have hset := count_set_none hclient c
    have hgiven : s.framePointers (.all msg ign i s.deqConnections.length after) = [client] := by
      rw [framePointers, if_pos hi, hclient]
      simp [hne, hconn]
    rw [hgiven]
    simp only [count_owners, hframes, List.flatMap_cons, Frame.owners]
    omega
  | allErased hi =>
    refine .of_quiet rfl rfl fun c => ?_
    simp only [count_owners, count_eraseNull, framePointers, if_neg hi]
    simp [hframes, Frame.owners, eraseNull]
  | allDone hi =>
    refine .of_quiet rfl rfl fun c => ?_
    simp only [count_owners, framePointers, if_neg hi]
    simp [hframes, Frame.owners]
  | afterDone =>
    refine .of_quiet rfl rfl fun c => ?_
    simp [count_owners, framePointers, hframes, Frame.owners]
    omega
  | updatePopped hlt hq =>
    refine .of_quiet rfl rfl fun c => ?_
    simp [count_owners, framePointers, hq, hframes, Frame.owners, List.count_cons]
    omega
  | updateDone =>
    refine .of_quiet rfl rfl fun c => ?_
    simp [count_owners, framePointers, hframes, Frame.owners]
  | onMessageDone =>
    refine .of_quiet rfl rfl fun c => ?_
    simp [count_owners, framePointers, hframes, Frame.owners, List.count_cons]
    omega

end

/-! ## The events -/

section

variable {s t : ServerThreads T} {e : ServerThreadEvent T}

theorem owned_iff_count (s : ServerThreads T) (c : ConnPtr) : s.Owned c ↔ 0 < s.owners.count (some c) :=
  List.count_pos_iff.symm

theorem PendingOwned.of_grows (h : s.PendingOwned) (hpending : ∀ c, t.Pending c → s.Pending c)
    (howned : ∀ c, s.Owned c → t.Owned c) : t.PendingOwned := fun c hc => howned c (h c (hpending c hc))

/-- An event that gives no pointer up spares everything. -/
theorem PendingOwned.iff_of_grows (ht : t.PendingOwned) (hgiven : s.pointersGivenUp e = []) :
    t.PendingOwned ↔ s.Spares e := by
  refine ⟨fun _ c _ hc => ?_, fun _ => ht⟩
  rw [hgiven] at hc
  cases hc

/-- An event that gives pointers up and takes nothing from what is pending. -/
theorem PendingOwned.iff_of_givenUp (h : s.PendingOwned) (hkeeps : ∀ c, s.Pending c → t.Pending c)
    (hadds : ∀ c, t.Pending c → s.Pending c ∨ t.Owned c)
    (howners : ∀ c, t.owners.count (some c) + (s.pointersGivenUp e).count (some c) = s.owners.count (some c)) :
    t.PendingOwned ↔ s.Spares e := by
  constructor
  · intro ht c hc _
    have := (owned_iff_count t c).mp (ht c (hkeeps c hc))
    have := howners c
    omega
  · intro hspares c hc
    rcases hadds c hc with hc | hc
    · rw [owned_iff_count]
      have hs := (owned_iff_count s c).mp (h c hc)
      have hsum := howners c
      by_cases hmem : some c ∈ s.pointersGivenUp e
      · have := hspares c hc hmem
        omega
      · rw [List.count_eq_zero.mpr hmem] at hsum
        omega
    · exact hc

/-- What is done on the thread of the io_context leaves everything pending with an owner: the connection it is done with has
one, or it would be gone. -/
theorem PendingOwned.onConnection {c : ConnPtr} {f : Connection T → Comp (Connection T × Option (OwnedMessage T))}
    (h : s.PendingOwned) (ht : s.onConnection c f = .ok t) : t.PendingOwned := by
  unfold ServerThreads.onConnection at ht
  split at ht
  · rename_i hc
    obtain ⟨⟨conn, owned⟩, _, ht⟩ := Cpp.bind_eq_ok.mp ht
    cases ht
    have hgrows : ∀ d, s.Owned d → some d ∈ s.deqConnections ++
        (owned.toList.foldl TsQueue.pushBack s.qMessagesIn).map (·.remote) ++ s.held ++ s.frames.flatMap Frame.owners := by
      intro d hd
      have hqueue : owned.toList.foldl TsQueue.pushBack s.qMessagesIn = s.qMessagesIn ++ owned.toList := by
        cases owned <;> simp [TsQueue.pushBack]
      simp only [Owned, owners, List.mem_append] at hd
      simp only [hqueue, List.map_append, List.mem_append]
      tauto
    intro d hd
    refine hgrows d ?_
    by_cases hdc : d = c
    · exact hdc ▸ hc
    · refine h d ?_
      simpa only [Pending, Function.update_of_ne hdc] using hd
  · cases ht

variable [StandardLayout (MessageHeader T)]

/-- Accepting a connection gives it an owner before it reads. -/
theorem PendingOwned.accept {msg : Message T} {request keep : Bool} (h : s.PendingOwned) :
    (s.accept msg request keep).PendingOwned := by
  have hgrows : ∀ d, s.Owned d → (s.accept msg request keep).Owned d := by
    intro d hd
    simp only [Owned, owners, List.mem_append] at hd ⊢
    cases request <;> cases keep <;>
      simp only [ServerThreads.accept, if_true, if_false, Bool.false_eq_true, List.mem_append]
    all_goals tauto
  intro d hd
  by_cases hdc : d = s.made
  · subst hdc
    cases request with
    | true => simp [ServerThreads.accept, Owned, owners]
    | false =>
      refine hgrows _ (h _ (.inr (.inr ?_)))
      simpa [Pending, ServerThreads.accept] using hd
  · refine hgrows d (h d ?_)
    cases request <;> simpa [Pending, ServerThreads.accept, Function.update_of_ne hdc] using hd

/-- A step from a state where everything pending has an owner leads to such a state exactly when it spares what is
pending. -/
theorem PendingOwned.step_iff (h : s.PendingOwned) (hstep : machine.Step s e t) : t.PendingOwned ↔ s.Spares e := by
  obtain ⟨hen, ht⟩ := hstep
  cases e with
  | accepted msg request keep =>
    cases ht
    exact h.accept.iff_of_grows rfl
  | write c e =>
    simp only [machine, next] at ht
    exact (h.onConnection ht).iff_of_grows rfl
  | read c e =>
    simp only [machine, next] at ht
    exact (h.onConnection ht).iff_of_grows rfl
  | posted =>
    simp only [machine, next] at ht
    obtain ⟨⟨c, msg⟩, posted, hposted⟩ := List.exists_cons_of_ne_nil (show s.posted ≠ [] from hen)
    rw [hposted] at ht
    have hless : PendingOwned { s with posted := posted } := by
      refine h.of_grows (fun d hd => ?_) fun d hd => hd
      rcases hd with hd | hd | hd
      · exact .inl hd
      · exact .inr (.inl hd)
      · exact .inr (.inr (by simp [hposted, hd]))
    exact (hless.onConnection ht).iff_of_grows rfl
  | call call =>
    refine PendingOwned.iff_of_grows ?_ rfl
    cases call <;> cases ht <;> refine h.of_grows (fun d hd => hd) fun d hd => ?_
    all_goals
      simp only [Owned, owners, List.mem_append, List.flatMap_cons] at hd ⊢
      tauto
  | update nMaxMessages =>
    cases ht
    exact PendingOwned.iff_of_grows (h.of_grows (fun d hd => hd) fun d hd => hd) rfl
  | run toSend =>
    obtain ⟨frame, rest, hframes⟩ := List.exists_cons_of_ne_nil (show s.frames ≠ [] from hen)
    simp only [machine, next, hframes] at ht
    have heffect := frame_effect hframes ht
    obtain ⟨sent, hposted, hsent⟩ := heffect.posted
    refine h.iff_of_givenUp (fun d hd => ?_) (fun d hd => ?_) fun d => ?_
    · simp only [Pending, heffect.conns, hposted, List.map_append, List.mem_append] at hd ⊢
      tauto
    · simp only [Pending, heffect.conns, hposted, List.map_append, List.mem_append] at hd ⊢
      rcases hd with hd | hd | hd | hd
      · exact .inl (.inl hd)
      · exact .inl (.inr (.inl hd))
      · exact .inl (.inr (.inr hd))
      · obtain ⟨p, hp, rfl⟩ := List.mem_map.mp hd
        exact .inr (hsent p hp)
    · simpa only [pointersGivenUp, hframes, List.head?_cons, Option.map_some, Option.getD_some] using heffect.owners d
  | hold c =>
    cases ht
    refine PendingOwned.iff_of_grows (h.of_grows (fun d hd => hd) fun d hd => ?_) rfl
    simp only [Owned, owners, List.mem_append] at hd ⊢
    tauto
  | letGo i =>
    cases ht
    have hi : i < s.held.length := hen.2
    refine h.iff_of_givenUp (fun d hd => hd) (fun d hd => .inl hd) fun d => ?_
    have hperm := (List.getElem_cons_eraseIdx_perm hi).count_eq (some d)
    simp only [count_owners, pointersGivenUp, List.getElem?_eq_getElem hi, Option.toList_some]
    rw [List.count_cons] at hperm
    rw [List.count_singleton]
    omega

end

/-- A server that has just been made: no connection reads or writes. -/
def Idle (conns : ConnPtr → Connection T) : Prop := ∀ c, (conns c).reads = none ∧ (conns c).writes = []

/-- For every run of the two threads from a new server: in every state of it everything pending has an owner, exactly when
every step of it spares what is pending. -/
theorem pending_owned_iff [StandardLayout (MessageHeader T)] {conns : ConnPtr → Connection T} (hidle : Idle conns)
    {es : List (ServerThreadEvent T)} {t : ServerThreads T} (h : Run machine { conns := conns } es t) :
    (∀ es' u, es' <+: es → Run machine { conns := conns } es' u → u.PendingOwned) ↔
      Run (machine.when Spares) { conns := conns } es t := by
  have h0 : PendingOwned ({ conns := conns } : ServerThreads T) := by
    rintro c (hc | hc | hc)
    · exact absurd (hidle c).1 hc
    · exact absurd (hidle c).2 hc
    · cases hc
  exact h.always_iff h0 fun _ _ _ hu hstep => hu.step_iff hstep

/-- A client is accepted, and the caller copies its pointer. A message is sent to all; the caller lets its pointer go while the
`Send` is posted, and `Update` the pointer of a message it has handed to `OnMessage`. The deque keeps one all the while. -/
def letGoTwice : List (ServerThreadEvent UInt32) :=
  [.accepted default true false, .hold 0, .call (.all default none), .run default, .run default, .run default, .letGo 0,
    .posted, .read 0 (.done [7, 0, 0, 0, 0, 0, 0, 0]), .update 1, .run default, .run default, .run default]

instance (s : ServerThreads UInt32) (e : ServerThreadEvent UInt32) : Decidable ((machine.when Spares).enabled s e) :=
  inferInstanceAs (Decidable (s.enabled e ∧ s.Spares e))

theorem pending_owned_letGoTwice :
    ∃ t, Run machine { conns := newConns } letGoTwice t ∧
      ∀ es' u, es' <+: letGoTwice → Run machine { conns := newConns } es' u → u.PendingOwned := by
  obtain ⟨t, ht⟩ : ∃ t, exec (machine.when Spares) { conns := newConns } letGoTwice = some t := ⟨_, rfl⟩
  have hrun := Run.of_exec ht
  exact ⟨t, hrun.of_when, (pending_owned_iff (fun _ => ⟨rfl, rfl⟩) hrun.of_when).mpr hrun⟩

/-- The read of a client fails while a `Send` is posted, and the next message to all resets its only pointer: the posted
`Send` runs on a connection that is gone. -/
theorem posted_without_owner :
    ∃ t, Run machine { conns := newConns } [.accepted default true false, .call (.all default none), .run default,
        .run default, .run default, .read 0 .fail, .call (.all default none), .run default] t ∧
      t.Pending 0 ∧ ¬t.Owned 0 ∧ machine.enabled t .posted ∧ machine.next t .posted = .error .badAccess := by
  refine ⟨_, Run.of_exec rfl, ?_, ?_, ?_, ?_⟩
  · exact .inr (.inr (List.mem_singleton_self _))
  · decide
  · exact nofun
  · rfl

end ServerThreads

end Netzwerk
