import BackupEngine.Lemmas.ClientIds
import BackupEngine.Theorems.Callbacks

/-!
# The ids of the clients

`nIDCounter` gives the connections that are let in the numbers from 1000 on, modulo `2^32`, and nothing looks whether a
number is still in use. Two connections in the deque have the same id exactly when a connection is still there when the
counter comes round to its number, or when it has the number 0, which a connection also has before it is given its own.
-/

namespace Netzwerk

open Cpp Transition

variable {T : Type}

/-- Two numbers that are given out as the same id. -/
theorem ofNat_id_eq {m n : Nat} : UInt32.ofNat m = UInt32.ofNat n ↔ m % 2 ^ 32 = n % 2 ^ 32 := by
  rw [← UInt32.toNat_inj, UInt32.toNat_ofNat', UInt32.toNat_ofNat']

/-! ## Ids and connections let in -/

/-- No two connections in the deque have the same id. -/
def ServerThreads.IdsDiffer (s : ServerThreads T) : Prop :=
  ∀ c d, some c ∈ s.deqConnections → some d ∈ s.deqConnections → (s.conns c).getID = (s.conns d).getID → c = d

/-- The connections that were let in, in order. -/
def letIn (log : List Callback) : List ConnPtr :=
  log.filterMap fun x => match x with
    | .onClientRequestConnect c true => some c
    | _ => none

namespace ServerCallbacks

/-- When a connection is pushed, no connection in the deque is the one the counter was 0 for; and when it is given its id,
none was let in a multiple of `2^32` connections before it. -/
def NumberFree (s : ServerCallbacks T) : ServerCallbackEvent T → Prop
  | .accepting =>
    match s.accepting with
    | .pushing _ =>
      ∀ d i, some d ∈ s.threads.deqConnections → (letIn s.log)[i]? = some d → (1000 + i) % 2 ^ 32 ≠ 0
    | .connecting =>
      ∀ d i, some d ∈ s.threads.deqConnections → (letIn s.log)[i]? = some d → i + 1 < (letIn s.log).length →
        ((letIn s.log).length - 1 - i) % 2 ^ 32 ≠ 0
    | _ => True
  | _ => True

/-! ## What holds in every state -/

/-- The connection that is being let in and has not been given its id. -/
def entering (s : ServerCallbacks T) : Option ConnPtr :=
  match s.accepting with
  | .pushing c => some c
  | .connecting => s.threads.deqConnections.getLast?.join
  | _ => none

/-- The connections that were let in have the numbers from 1000 on as their ids, in this order, but for the one that is
entering; and the deque has no others. -/
structure Numbered (s : ServerCallbacks T) (given : List ConnPtr) : Prop where
  letIn : letIn s.log = given ++ s.entering.toList
  nodup : (given ++ s.entering.toList).Nodup
  counter : s.threads.nIDCounter = UInt32.ofNat (1000 + given.length)
  ids : ∀ i c, given[i]? = some c → (s.threads.conns c).getID = UInt32.ofNat (1000 + i)
  entering : ∀ c, s.entering = some c → (s.threads.conns c).getID = 0
  deqConnections : ∀ c, some c ∈ s.threads.deqConnections → c ∈ given ∨ s.accepting = .connecting ∧ s.entering = some c

variable {s t : ServerCallbacks T} {given : List ConnPtr}

theorem Numbered.start {conns : ConnPtr → Connection T} : Numbered ({ threads := { conns } } : ServerCallbacks T) [] where
  letIn := rfl
  nodup := .nil
  counter := rfl
  ids := by simp
  entering := nofun
  deqConnections := by simp

/-- The id of a connection that was given one. -/
theorem Numbered.getID (h : s.Numbered given) {c : ConnPtr} (hc : c ∈ given) :
    ∃ i, given[i]? = some c ∧ (s.threads.conns c).getID = UInt32.ofNat (1000 + i) := by
  obtain ⟨i, hi⟩ := List.mem_iff_getElem?.mp hc
  exact ⟨i, hi, h.ids i c hi⟩

/-- The connections that were let in were made. -/
theorem Inv.lt_made_of_letIn (h : Inv s) {c : ConnPtr} (hc : c ∈ Netzwerk.letIn s.log) : c < s.threads.made := by
  obtain ⟨x, hx, hxc⟩ := List.mem_filterMap.mp hc
  split at hxc
  · cases hxc
    exact h.requested _ _ hx
  · cases hxc

/-- The handler pushes the connection. -/
theorem Numbered.pushing (h : s.Numbered given) {c : ConnPtr} (haccepting : s.accepting = .pushing c) :
    Numbered { s with
      threads := { s.threads with deqConnections := s.threads.deqConnections ++ [some c] }
      accepting := .connecting } given := by
  have hentering : s.entering = some c := by rw [ServerCallbacks.entering, haccepting]
  have hback : ServerCallbacks.entering { s with
      threads := { s.threads with deqConnections := s.threads.deqConnections ++ [some c] }
      accepting := .connecting } = some c := by
    simp only [ServerCallbacks.entering, List.getLast?_concat]
    rfl
  refine ⟨?_, ?_, h.counter, h.ids, fun d hd => h.entering d (hentering.trans (hback.symm.trans hd)), fun d hd => ?_⟩
  · rw [hback, ← hentering]
    exact h.letIn
  · rw [hback, ← hentering]
    exact h.nodup
  · rcases List.mem_append.mp hd with hd | hd
    · refine (h.deqConnections d hd).imp_right fun hd => ?_
      rw [haccepting] at hd
      cases hd.1
    · cases List.mem_singleton.mp hd
      exact .inr ⟨rfl, hback⟩

/-- The handler calls `ConnectToClient`. -/
theorem Numbered.connecting (h : s.Numbered given) (haccepting : s.accepting = .connecting) {c : ConnPtr}
    (hback : s.threads.deqConnections.getLast? = some (some c)) {conn : Connection T}
    (hconn : conn.getID = s.threads.nIDCounter) :
    Numbered { s with
      threads := { s.threads with
        conns := Function.update s.threads.conns c conn
        nIDCounter := s.threads.nIDCounter + 1 }
      accepting := .announcing } (given ++ [c]) := by
  have hentering : s.entering = some c := by
    simp only [ServerCallbacks.entering, haccepting, hback]
    rfl
  have hletIn := h.letIn
  have hnodup := h.nodup
  rw [hentering] at hletIn hnodup
  have hlast : ∀ d ∈ given, d ≠ c := by
    rintro d hd rfl
    exact (List.nodup_append.mp hnodup).2.2 d hd d List.mem_cons_self rfl
  refine ⟨hletIn.trans (List.append_nil _).symm, ?_, ?_, fun i d hi => ?_, nofun, fun d hd => .inl ?_⟩
  · exact (List.append_nil (given ++ [c])).symm ▸ hnodup
  · rw [h.counter, List.length_append, List.length_singleton, ← Nat.add_assoc]
    exact (UInt32.ofNat_add _ 1).symm
  · rcases Nat.lt_or_ge i given.length with hlt | hge
    · rw [List.getElem?_append_left hlt] at hi
      simp only [Function.update_of_ne (hlast d (List.mem_of_getElem? hi))]
      exact h.ids i d hi
    · rw [List.getElem?_append_right hge] at hi
      obtain ⟨hzero, rfl⟩ := List.getElem?_eq_some_iff.mp hi
      have hlength : i = given.length := by
        rw [List.length_singleton] at hzero
        omega
      subst hlength
      simp only [Nat.sub_self, List.getElem_singleton, Function.update_self]
      exact hconn.trans h.counter
  · rcases h.deqConnections d hd with hd | ⟨_, hd⟩
    · exact List.mem_append_left _ hd
    · cases hentering.symm.trans hd
      exact List.mem_append_right _ List.mem_cons_self

/-- The handler calls `OnClientConnect`, and ends. -/
theorem Numbered.announcing (h : s.Numbered given) (haccepting : s.accepting = .announcing) {client : Option ConnPtr} :
    Numbered { s with accepting := .waiting, log := s.log ++ [.onClientConnect client] } given := by
  have hnone : s.entering = none := by rw [ServerCallbacks.entering, haccepting]
  have hletIn := h.letIn
  have hnodup := h.nodup
  rw [hnone] at hletIn hnodup
  refine ⟨?_, hnodup, h.counter, h.ids, nofun, fun d hd => ?_⟩
  · rw [Netzwerk.letIn, List.filterMap_append]
    exact (List.append_nil _).trans hletIn
  · refine (h.deqConnections d hd).imp_right fun hd => ?_
    rw [haccepting] at hd
    cases hd.1

/-! ## One connection more -/

/-- A connection that comes, or is given an id, while the others stay as they are. -/
theorem idsDiffer_iff_new {s t : ServerThreads T} {c : ConnPtr} (hs : s.IdsDiffer)
    (hids : ∀ d, d ≠ c → (t.conns d).getID = (s.conns d).getID)
    (hdeq : ∀ d, some d ∈ t.deqConnections ↔ some d ∈ s.deqConnections ∨ d = c) :
    t.IdsDiffer ↔ ∀ d, some d ∈ s.deqConnections → d ≠ c → (s.conns d).getID ≠ (t.conns c).getID := by
  constructor
  · intro ht d hd hdc heq
    exact hdc (ht d c ((hdeq d).mpr (.inl hd)) ((hdeq c).mpr (.inr rfl)) ((hids d hdc).trans heq))
  · intro hnew d e hd he heq
    by_cases hdc : d = c
    · by_cases hec : e = c
      · exact hdc.trans hec.symm
      · subst hdc
        refine absurd ?_ (hnew e (((hdeq e).mp he).resolve_right hec) hec)
        rw [← hids e hec, heq]
    · by_cases hec : e = c
      · subst hec
        exact absurd ((hids d hdc).symm.trans heq) (hnew d (((hdeq d).mp hd).resolve_right hdc) hdc)
      · rw [hids d hdc, hids e hec] at heq
        exact hs d e (((hdeq d).mp hd).resolve_right hdc) (((hdeq e).mp he).resolve_right hec) heq

/-- The place among the connections that were let in of one that has its id. -/
theorem Numbered.place (h : s.Numbered given) {c : ConnPtr} (hc : c ∈ given) {i : Nat} :
    (Netzwerk.letIn s.log)[i]? = some c ↔ given[i]? = some c := by
  rw [h.letIn]
  rcases Nat.lt_or_ge i given.length with hlt | hge
  · rw [List.getElem?_append_left hlt]
  · rw [List.getElem?_append_right hge, List.getElem?_eq_none hge]
    refine iff_of_false (fun hi => ?_) nofun
    exact (List.nodup_append.mp h.nodup).2.2 c hc c (List.mem_of_getElem? hi) rfl

/-- The ids differ after a push exactly when no connection in the deque has the number that a new one has. -/
theorem Numbered.push_iff (h : s.Numbered given) (hs : s.threads.IdsDiffer) {c : ConnPtr}
    (haccepting : s.accepting = .pushing c) :
    ({ s.threads with deqConnections := s.threads.deqConnections ++ [some c] } : ServerThreads T).IdsDiffer ↔
      ∀ d i, some d ∈ s.threads.deqConnections → (Netzwerk.letIn s.log)[i]? = some d → (1000 + i) % 2 ^ 32 ≠ 0 := by
  have hentering : s.entering = some c := by rw [ServerCallbacks.entering, haccepting]
  have hgiven : ∀ d, some d ∈ s.threads.deqConnections → d ∈ given := by
    refine fun d hd => (h.deqConnections d hd).resolve_right fun hd => ?_
    rw [haccepting] at hd
    cases hd.1
  have hne : ∀ d ∈ given, d ≠ c := by
    rintro d hd rfl
    have hnodup := h.nodup
    rw [hentering] at hnodup
    exact (List.nodup_append.mp hnodup).2.2 d hd d List.mem_cons_self rfl
  have hzero : ∀ {i}, UInt32.ofNat (1000 + i) = 0 ↔ (1000 + i) % 2 ^ 32 = 0 := ofNat_id_eq (n := 0)
  refine (idsDiffer_iff_new (c := c) hs (fun _ _ => ?_) fun d => ?_).trans ?_
  · rfl
  · rw [List.mem_append, List.mem_singleton, Option.some_inj]
  · simp only [h.entering c hentering]
    constructor
    · intro hnew d i hd hi
      have hid := h.ids i d ((h.place (hgiven d hd)).mp hi)
      exact fun hmod => hnew d hd (hne d (hgiven d hd)) (hid.trans (hzero.mpr hmod))
    · intro hfree d hd _ hid
      obtain ⟨i, hi, hnumber⟩ := h.getID (hgiven d hd)
      exact hfree d i hd ((h.place (hgiven d hd)).mpr hi) (hzero.mp (hnumber.symm.trans hid))

/-- The ids differ after `ConnectToClient` exactly when no other connection in the deque has the number of the counter. -/
theorem Numbered.connect_iff (h : s.Numbered given) (hs : s.threads.IdsDiffer) (haccepting : s.accepting = .connecting)
    {c : ConnPtr} (hback : s.threads.deqConnections.getLast? = some (some c)) {conn : Connection T}
    (hconn : conn.getID = s.threads.nIDCounter) :
    ({ s.threads with
      conns := Function.update s.threads.conns c conn
      nIDCounter := s.threads.nIDCounter + 1 } : ServerThreads T).IdsDiffer ↔
      ∀ d i, some d ∈ s.threads.deqConnections → (Netzwerk.letIn s.log)[i]? = some d →
        i + 1 < (Netzwerk.letIn s.log).length → ((Netzwerk.letIn s.log).length - 1 - i) % 2 ^ 32 ≠ 0 := by
  have hentering : s.entering = some c := by
    simp only [ServerCallbacks.entering, haccepting, hback]
    rfl
  have hlength : (Netzwerk.letIn s.log).length = given.length + 1 := by
    rw [h.letIn, hentering]
    exact List.length_append
  have hgiven : ∀ d, some d ∈ s.threads.deqConnections → d ≠ c → d ∈ given := by
    refine fun d hd hdc => (h.deqConnections d hd).resolve_right fun hd => ?_
    exact hdc (Option.some_inj.mp (hd.2.symm.trans hentering))
  have hsame : ∀ {i}, i < given.length →
      (UInt32.ofNat (1000 + i) = s.threads.nIDCounter ↔ (given.length + 1 - 1 - i) % 2 ^ 32 = 0) := by
    intro i hi
    rw [h.counter, ofNat_id_eq]
    omega
  rw [hlength]
  refine (idsDiffer_iff_new (c := c) hs (fun d hdc => ?_) fun d => ?_).trans ?_
  · simp only [Function.update_of_ne hdc]
  · refine ⟨.inl, fun hd => hd.elim id ?_⟩
    rintro rfl
    exact List.mem_of_getLast? hback
  · simp only [Function.update_self, hconn]
    constructor
    · intro hnew d i hd hi hlt
      have hlt : i < given.length := Nat.lt_of_succ_lt_succ hlt
      rw [h.letIn, List.getElem?_append_left hlt] at hi
      have hdc : d ≠ c := by
        rintro rfl
        have hnodup := h.nodup
        rw [hentering] at hnodup
        exact (List.nodup_append.mp hnodup).2.2 d (List.mem_of_getElem? hi) d List.mem_cons_self rfl
      exact fun hmod => hnew d hd hdc ((h.ids i d hi).trans ((hsame hlt).mpr hmod))
    · intro hfree d hd hdc hid
      obtain ⟨i, hi, hnumber⟩ := h.getID (hgiven d hd hdc)
      obtain ⟨hlt, _⟩ := List.getElem?_eq_some_iff.mp hi
      exact hfree d i hd ((h.place (hgiven d hd hdc)).mpr hi) (Nat.succ_lt_succ hlt) ((hsame hlt).mp (hnumber.symm.trans hid))

section

variable [StandardLayout (MessageHeader T)]

/-- A connection is made, and asked for. -/
theorem Numbered.accepted (h : s.Numbered given) (hs : Inv s) (hwaiting : s.accepting = .waiting) {msg : Message T}
    {request keep : Bool} : (s.accepted msg request keep).Numbered given := by
  have hnone : s.entering = none := by rw [ServerCallbacks.entering, hwaiting]
  have hletIn : Netzwerk.letIn s.log = given := by rw [h.letIn, hnone, Option.toList_none, List.append_nil]
  have hmade : s.threads.made ∉ given := fun hmem => Nat.lt_irrefl _ (hs.lt_made_of_letIn (hletIn ▸ hmem))
  have hconns : ∀ c ∈ given, ((s.accepted msg request keep).threads.conns c).getID = (s.threads.conns c).getID := by
    intro c hc
    have hne : c ≠ s.threads.made := fun heq => hmade (heq ▸ hc)
    simp only [ServerCallbacks.accepted, ServerThreads.accept, Bool.false_eq_true, if_false, Function.update_of_ne hne]
  have hentering : (s.accepted msg request keep).entering = if request then some s.threads.made else none := by
    cases request <;> rfl
  have hlog : Netzwerk.letIn (s.accepted msg request keep).log =
      given ++ (if request then some s.threads.made else none).toList := by
    rw [ServerCallbacks.accepted, Netzwerk.letIn, List.filterMap_append, ← hletIn]
    cases request <;> rfl
  refine ⟨hentering ▸ hlog, ?_, h.counter, fun i c hi => ?_, fun c hc => ?_, fun c hc => ?_⟩
  · rw [hentering]
    cases request with
    | false => simpa [hnone] using h.nodup
    | true =>
      have hnodup := h.nodup
      rw [hnone, Option.toList_none, List.append_nil] at hnodup
      exact List.concat_eq_append ▸ hnodup.concat hmade
  · rw [hconns c (List.mem_of_getElem? hi)]
    exact h.ids i c hi
  · rw [hentering] at hc
    cases request with
    | false => cases hc
    | true =>
      cases hc
      simp only [ServerCallbacks.accepted, ServerThreads.accept, Bool.false_eq_true, if_false, Function.update_self]
      rfl
  · refine (h.deqConnections c hc).imp_right fun hc => ?_
    rw [hwaiting] at hc
    cases hc.1

/-- Everything that is not the handler of a new connection. -/
theorem Numbered.thread (h : s.Numbered given) (hs : Inv s) {e : ServerThreadEvent T} {threads : ServerThreads T}
    (hen : s.enabled (.thread e)) (hnext : s.threads.next e = .ok threads) :
    Numbered { s with threads, log := s.log ++ s.threads.callbacks e } given := by
  obtain ⟨hen, hacc, hwaiting⟩ := hen
  obtain ⟨hids, hcounter, hdeq⟩ := ServerThreads.next_sameIds hen hacc hnext
  have hentering : ServerCallbacks.entering { s with threads, log := s.log ++ s.threads.callbacks e } = s.entering := by
    unfold ServerCallbacks.entering
    cases haccepting : s.accepting with
    | connecting =>
      have hoff : ¬e.OnContext := fun hon => nomatch haccepting.symm.trans (hwaiting hon)
      have hletting := hs.lettingIn
      rw [LettingIn, haccepting] at hletting
      obtain ⟨c, hback, _, hopen⟩ := hletting
      simp only [hback, (ServerThreads.next_onCaller hen hoff hnext).back c hback hopen]
    | _ => rfl
  have hlog : Netzwerk.letIn (s.log ++ s.threads.callbacks e) = Netzwerk.letIn s.log := by
    have hnone : Netzwerk.letIn (s.threads.callbacks e) = [] := by
      refine List.filterMap_eq_nil_iff.mpr fun x hx => ?_
      by_cases hon : e.OnContext
      · obtain ⟨_, _, _, _, _, hcallbacks, _⟩ := ServerThreads.next_onContext hen hon hacc hnext
        rw [hcallbacks] at hx
        cases hx
      · have heffect := (ServerThreads.next_onCaller hen hon hnext).qMessagesIn
        rcases heffect with ⟨_, hcallbacks | ⟨client, hcallbacks⟩⟩ | ⟨msg, _, hcallbacks⟩
        · rw [hcallbacks] at hx
          cases hx
        · rw [hcallbacks, List.mem_singleton] at hx
          rw [hx]
        · rw [hcallbacks, List.mem_singleton] at hx
          rw [hx]
    rw [Netzwerk.letIn, List.filterMap_append]
    exact (congrArg _ hnone).trans (List.append_nil _)
  refine ⟨?_, ?_, hcounter.trans h.counter, fun i c hi => ?_, fun c hc => ?_, fun c hc => ?_⟩
  · rw [hentering]
    exact hlog.trans h.letIn
  · rw [hentering]
    exact h.nodup
  · exact (hids c).trans (h.ids i c hi)
  · exact (hids c).trans (h.entering c (hentering ▸ hc))
  · rw [hentering]
    exact h.deqConnections c (hdeq c hc)

/-! ## Every run -/

/-- A step keeps the numbers, and the ids differ after it exactly when it meets the condition. -/
theorem Numbered.step_iff {e : ServerCallbackEvent T} (h : s.Numbered given) (hs : Inv s) (hd : s.threads.IdsDiffer)
    (hstep : machine.Step s e t) : (∃ given, t.Numbered given) ∧ (t.threads.IdsDiffer ↔ s.NumberFree e) := by
  obtain ⟨hen, hnext⟩ := hstep
  cases e with
  | accepted msg request keep =>
    cases hnext
    refine ⟨⟨given, h.accepted hs hen⟩, iff_of_true (fun c d hc hcd heq => ?_) trivial⟩
    have hconns : ∀ c, some c ∈ s.threads.deqConnections →
        ((s.accepted msg request keep).threads.conns c).getID = (s.threads.conns c).getID := by
      intro c hc
      have hne : c ≠ s.threads.made := by
        rintro rfl
        have hgiven : s.threads.made ∈ given := by
          refine (h.deqConnections _ hc).resolve_right fun hc => ?_
          cases hen.symm.trans hc.1
        exact Nat.lt_irrefl _ (hs.lt_made_of_letIn (h.letIn ▸ List.mem_append_left _ hgiven))
      simp only [ServerCallbacks.accepted, ServerThreads.accept, Bool.false_eq_true, if_false, Function.update_of_ne hne]
    exact hd c d hc hcd ((hconns c hc).symm.trans (heq.trans (hconns d hcd)))
  | thread e =>
    obtain ⟨threads, hthreads, hr⟩ := bind_eq_ok.mp hnext
    cases hr
    obtain ⟨hids, _, hdeq⟩ := ServerThreads.next_sameIds hen.1 hen.2.1 hthreads
    refine ⟨⟨given, h.thread hs hen hthreads⟩, iff_of_true (fun c d hc hcd heq => ?_) trivial⟩
    exact hd c d (hdeq c hc) (hdeq d hcd) ((hids c).symm.trans (heq.trans (hids d)))
  | accepting =>
    have hletting := hs.lettingIn
    unfold LettingIn at hletting
    rw [NumberFree]
    cases haccepting : s.accepting with
    | waiting => exact absurd haccepting hen
    | pushing c =>
      simp only [machine, ServerCallbacks.next, accept, haccepting] at hnext
      cases hnext
      exact ⟨⟨given, h.pushing haccepting⟩, h.push_iff hd haccepting⟩
    | connecting =>
      rw [haccepting] at hletting
      obtain ⟨c, hback, hrequest, hopen⟩ := hletting
      simp only [machine, ServerCallbacks.next, accept, haccepting, ServerThreads.back, hback, ok_bind,
        hs.connects hrequest hopen] at hnext
      cases hnext
      exact ⟨⟨_, h.connecting haccepting hback rfl⟩, h.connect_iff hd haccepting hback rfl⟩
    | announcing =>
      rw [haccepting] at hletting
      obtain ⟨c, hback, _, _⟩ := hletting
      simp only [machine, ServerCallbacks.next, accept, haccepting, ServerThreads.back, hback, ok_bind] at hnext
      cases hnext
      exact ⟨⟨given, h.announcing haccepting⟩, iff_of_true hd trivial⟩

/-- In every run from a new server: no two connections in the deque have the same id, exactly when every connection that is
let in finds its number free. -/
theorem ids_differ_iff {conns : ConnPtr → Connection T} (hidle : ServerThreads.Idle conns)
    {es : List (ServerCallbackEvent T)} (h : Run machine { threads := { conns } } es t) :
    (∀ es' u, es' <+: es → Run machine { threads := { conns } } es' u → u.threads.IdsDiffer) ↔
      Run (machine.when NumberFree) { threads := { conns } } es t := by
  have h0 : ({ conns } : ServerThreads T).IdsDiffer := fun c _ hc => by simp at hc
  refine Run.always_iff_under (I := fun s => Inv s ∧ ∃ given, s.Numbered given) ⟨Inv.start hidle, [], .start⟩ h0 ?_ h
  rintro s e t ⟨hs, given, hgiven⟩ hd hstep
  obtain ⟨hnumbered, hiff⟩ := hgiven.step_iff hs hd hstep
  exact ⟨⟨hs.step hstep, hnumbered⟩, hiff⟩

/-- A client is let in. -/
def enter [Inhabited T] : List (ServerCallbackEvent T) := [.accepted default true false, .accepting, .accepting, .accepting]

/-- Two clients are let in, one after the other. -/
theorem ids_differ_two : ∃ t : ServerCallbacks UInt32,
    Run machine { threads := { conns := newConns } } (enter ++ enter) t ∧ t.threads.deqConnections = [some 0, some 1] ∧
      ∀ es u, es <+: enter ++ enter → Run machine { threads := { conns := newConns } } es u → u.threads.IdsDiffer := by
  have hidle : ServerThreads.Idle newConns := fun _ => ⟨rfl, rfl⟩
  obtain ⟨t, hdeq, hrun⟩ : ∃ t : ServerCallbacks UInt32, t.threads.deqConnections = [some 0, some 1] ∧
      Run (machine.when NumberFree) { threads := { conns := newConns } } (enter ++ enter) t := by
    refine ⟨_, rfl, .cons ⟨⟨rfl, trivial⟩, rfl⟩ (.cons ⟨⟨nofun, ?_⟩, rfl⟩ (.cons ⟨⟨nofun, ?_⟩, rfl⟩
      (.cons ⟨⟨nofun, trivial⟩, rfl⟩ (.cons ⟨⟨rfl, trivial⟩, rfl⟩ (.cons ⟨⟨nofun, ?_⟩, rfl⟩ (.cons ⟨⟨nofun, ?_⟩, rfl⟩
        (.single ⟨⟨nofun, trivial⟩, rfl⟩)))))))⟩
    · intro d i hd
      cases hd
    · intro d i _ _ hlt
      exact absurd hlt (Nat.not_lt.mpr (Nat.le_add_left 1 i))
    · intro d i _ hi
      have hlt : i < 2 := (List.getElem?_eq_some_iff.mp hi).1
      omega
    · intro d i _ _ hlt
      have hlt : i + 1 < 2 := hlt
      show (2 - 1 - i) % 2 ^ 32 ≠ 0
      omega
  exact ⟨t, hrun.of_when, hdeq, (ids_differ_iff hidle hrun.of_when).mpr hrun⟩

end

end ServerCallbacks

/-! ## A client that stays -/

section

variable [StandardLayout (MessageHeader T)] [Inhabited T]

namespace ServerThreads

/-- The read of a connection fails, and the next message to all takes it out of the deque. -/
def removal (c : ConnPtr) : List (ServerThreadEvent T) :=
  [.read c .fail, .call (.all default none), .run default, .run default, .run default, .run default, .run default,
    .run default, .run default, .run default]

/-- The loop of `MessageAllClients` comes to a connection that is open. -/
theorem all_open {s : ServerThreads T} {rest : List (Frame T)} {msg : Message T} {i : Nat}
    {afterDisconectSend : List (Message T)} {c : ConnPtr}
    (hframes : s.frames = .all msg none i s.deqConnections.length afterDisconectSend :: rest)
    (hi : i < s.deqConnections.length) (hc : s.deqConnections[i]? = some (some c)) (hopen : (s.conns c).isOpen = true) :
    machine.Step s (.run default) { s with
      posted := s.posted ++ [(c, msg)]
      frames := .all msg none (i + 1) s.deqConnections.length afterDisconectSend :: rest } := by
  refine ⟨fun h => List.cons_ne_nil _ _ (hframes.symm.trans h), ?_⟩
  simp only [machine, next, hframes, frameStep, ne_eq, not_true_eq_false, if_false, if_pos hi, elemAt, hc]
  simp [isConnected, hopen, send]

/-- The loop of `MessageAllClients` comes to a connection that is closed. -/
theorem all_closed {s : ServerThreads T} {rest : List (Frame T)} {msg : Message T} {i : Nat}
    {afterDisconectSend : List (Message T)} {c : ConnPtr}
    (hframes : s.frames = .all msg none i s.deqConnections.length afterDisconectSend :: rest)
    (hi : i < s.deqConnections.length) (hc : s.deqConnections[i]? = some (some c)) (hopen : (s.conns c).isOpen = false) :
    machine.Step s (.run default) { s with
      deqConnections := s.deqConnections.set i none
      frames := .all msg none (i + 1) s.deqConnections.length (afterDisconectSend ++ [default]) :: rest } := by
  refine ⟨fun h => List.cons_ne_nil _ _ (hframes.symm.trans h), ?_⟩
  simp only [machine, next, hframes, frameStep, ne_eq, not_true_eq_false, if_false, if_pos hi, elemAt, hc]
  simp [isConnected, hopen]

/-- The first connection stays, and the other one goes. -/
theorem run_removal {s : ServerThreads T} {c : ConnPtr} (hframes : s.frames = []) (hc : c ≠ 0)
    (hdeq : s.deqConnections = [some 0, some c]) (hopen : (s.conns 0).isOpen = true) (hreads : (s.conns c).reads ≠ none) :
    ∃ conns posted, conns 0 = s.conns 0 ∧
      Run machine s (removal c) { s with conns, posted, deqConnections := [some 0] } := by
  obtain ⟨closed, hclosed, hshut⟩ : ∃ conn, (s.conns c).readNext .fail = .ok (conn, none) ∧ conn.isOpen = false := ⟨_, rfl, rfl⟩
  have howned : s.Owned c := by simp [Owned, owners, hdeq]
  have hzero : Function.update s.conns c closed 0 = s.conns 0 := Function.update_of_ne hc.symm _ _
  refine ⟨Function.update s.conns c closed, s.posted ++ [(0, default)] ++ [(0, default)], hzero, ?_⟩
  obtain ⟨conns, made, nIDCounter, deqConnections, qMessagesIn, posted, held, frames⟩ := s
  cases hframes
  cases hdeq
  refine .cons (t := ⟨Function.update conns c closed, made, nIDCounter, [some 0, some c], qMessagesIn, posted, held, []⟩)
    ⟨⟨trivial, hreads⟩, ?_⟩ (.cons ⟨⟨?_, fun _ hmem => absurd (List.mem_singleton.mp hmem) (Option.some_ne_none _)⟩, rfl⟩ ?_)
  · simp only [machine, next, onConnection, howned, if_true, hclosed]
    rfl
  · exact trivial
  refine .cons (all_open rfl Nat.two_pos rfl ((congrArg _ hzero).trans hopen)) ?_
  refine .cons (all_closed rfl Nat.one_lt_two rfl ?_) ?_
  · exact (congrArg _ (Function.update_self c closed conns)).trans hshut
  refine .cons ⟨by rintro ⟨⟩, rfl⟩ (.cons ⟨by rintro ⟨⟩, rfl⟩ ?_)
  refine .cons (all_open rfl Nat.one_pos rfl ((congrArg _ hzero).trans hopen)) ?_
  exact .cons ⟨by rintro ⟨⟩, rfl⟩ (.cons ⟨by rintro ⟨⟩, rfl⟩ (.single ⟨by rintro ⟨⟩, rfl⟩))

end ServerThreads

namespace ServerCallbacks

omit [Inhabited T] in
/-- While no connection is accepted, the threads run as they do by themselves. -/
theorem run_thread {s : ServerCallbacks T} (hwaiting : s.accepting = .waiting) {es : List (ServerThreadEvent T)}
    (hacc : ∀ e ∈ es, ¬e.Accepts) {threads : ServerThreads T} (h : Run ServerThreads.machine s.threads es threads) :
    ∃ log, Run machine s (es.map .thread) { s with threads, log } := by
  induction h with
  | nil => exact ⟨s.log, .nil⟩
  | @snoc es t e u run step ih =>
    obtain ⟨log, hlog⟩ := ih fun e he => hacc e (List.mem_append_left _ he)
    refine ⟨log ++ t.callbacks e, ?_⟩
    rw [List.map_append]
    refine .snoc hlog ⟨⟨step.1, hacc e (List.mem_append_right _ List.mem_cons_self), fun _ => hwaiting⟩, ?_⟩
    exact bind_eq_ok.mpr ⟨u, step.2, rfl⟩

/-- The first client is there, and `n` others came and went. -/
structure Alone (s : ServerCallbacks T) (n : Nat) : Prop where
  accepting : s.accepting = .waiting
  frames : s.threads.frames = []
  deqConnections : s.threads.deqConnections = [some 0]
  made : s.threads.made = n + 1
  nIDCounter : s.threads.nIDCounter = UInt32.ofNat (1001 + n)
  isOpen : (s.threads.conns 0).isOpen = true
  getID : (s.threads.conns 0).getID = 1000

/-- A client is let in, and removed. -/
def visit (c : ConnPtr) : List (ServerCallbackEvent T) := enter ++ (ServerThreads.removal c).map .thread

/-- After a visit the first client is alone again. -/
theorem Alone.visit {s : ServerCallbacks T} {n : Nat} (h : s.Alone n) :
    ∃ t, Run machine s (visit (n + 1)) t ∧ t.Alone (n + 1) := by
  rw [show ServerCallbacks.visit (T := T) (n + 1) = ServerCallbacks.visit s.threads.made from congrArg _ h.made.symm]
  have hne : s.threads.made ≠ 0 := h.made ▸ Nat.succ_ne_zero n
  have henter := run_accept s h.accepting default false
  have hzero : (s.threads.accept default true false).conns 0 = s.threads.conns 0 := by
    simp only [ServerThreads.accept, if_true, Function.update_of_ne hne.symm]
  have hdeq : (s.threads.accept default true false).deqConnections = [some 0, some s.threads.made] := by
    simp [ServerThreads.accept, h.deqConnections]
  have hreads : ((s.threads.accept default true false).conns s.threads.made).reads ≠ none := by
    simp [ServerThreads.accept, Connection.connectToClient, Connection.readHeader]
  obtain ⟨conns, posted, hconns, hrun⟩ := ServerThreads.run_removal (s := s.threads.accept default true false) h.frames hne
    hdeq ((congrArg _ hzero).trans h.isOpen) hreads
  have hacc : ∀ e ∈ ServerThreads.removal (T := T) s.threads.made, ¬e.Accepts := by
    simp [ServerThreads.removal, ServerThreadEvent.Accepts]
  obtain ⟨log, hlog⟩ := run_thread (s := { s with
    threads := s.threads.accept default true false
    log := s.log ++ [.onClientRequestConnect s.threads.made true] ++ [.onClientConnect (some s.threads.made)] }) h.accepting
    hacc hrun
  refine ⟨_, henter.append hlog, h.accepting, h.frames, rfl, congrArg (· + 1) h.made, ?_, ?_, ?_⟩
  · exact (congrArg (· + 1) h.nIDCounter).trans (UInt32.ofNat_add (1001 + n) 1).symm
  · exact (congrArg _ (hconns.trans hzero)).trans h.isOpen
  · exact (congrArg _ (hconns.trans hzero)).trans h.getID

/-- The first client is let in, and `n` others are let in and removed. -/
def visits (n : Nat) : List (ServerCallbackEvent T) := enter ++ (List.range n).flatMap fun i => visit (i + 1)

/-- The server after `n` visits. -/
theorem run_visits (n : Nat) :
    ∃ t : ServerCallbacks UInt32, Run machine { threads := { conns := newConns } } (visits n) t ∧ t.Alone n := by
  induction n with
  | zero =>
    refine ⟨_, run_accept { threads := { conns := newConns } } rfl default false, ?_⟩
    exact ⟨rfl, rfl, rfl, rfl, rfl, rfl, rfl⟩
  | succ n ih =>
    obtain ⟨s, hrun, hs⟩ := ih
    obtain ⟨t, hvisit, ht⟩ := hs.visit
    refine ⟨t, ?_, ht⟩
    have hsucc : visits (T := UInt32) (n + 1) = visits n ++ ServerCallbacks.visit (n + 1) := by
      rw [visits, visits, List.range_succ, List.flatMap_append, List.flatMap_singleton, List.append_assoc]
    exact hsucc ▸ hrun.append hvisit

/-- The counter comes round while the first client is there, and the next client is given its id. -/
theorem ids_wrap : ∃ (t : ServerCallbacks UInt32) (c : ConnPtr),
    Run machine { threads := { conns := newConns } } (visits (2 ^ 32 - 1) ++ enter) t ∧ c ≠ 0 ∧
      t.threads.deqConnections = [some 0, some c] ∧ (t.threads.conns 0).getID = 1000 ∧ (t.threads.conns c).getID = 1000 ∧
      ¬t.threads.IdsDiffer := by
  obtain ⟨s, hrun, hs⟩ := run_visits (2 ^ 32 - 1)
  have hne : s.threads.made ≠ 0 := hs.made ▸ Nat.succ_ne_zero _
  have hdeq : (s.threads.accept default true false).deqConnections = [some 0, some s.threads.made] := by
    simp [ServerThreads.accept, hs.deqConnections]
  have hzero : ((s.threads.accept default true false).conns 0).getID = 1000 := by
    simp only [ServerThreads.accept, if_true, Function.update_of_ne hne.symm]
    exact hs.getID
  have hnew : ((s.threads.accept default true false).conns s.threads.made).getID = 1000 := by
    simp only [ServerThreads.accept, if_true, Function.update_self]
    exact hs.nIDCounter.trans (by decide)
  refine ⟨_, s.threads.made, hrun.append (run_accept s hs.accepting default false), hne, hdeq, hzero, hnew, fun h => ?_⟩
  have hmem : ∀ c, c = 0 ∨ c = s.threads.made → some c ∈ (s.threads.accept default true false).deqConnections := by
    simp [hdeq]
  exact hne (h _ 0 (hmem _ (.inr rfl)) (hmem 0 (.inl rfl)) (hnew.trans hzero.symm))

end ServerCallbacks

end

end Netzwerk
