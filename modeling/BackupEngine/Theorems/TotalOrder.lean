import BackupEngine.Theorems.Sends

/-!
# All clients are told the same

`MessageAllClients` goes through the deque while the other thread reads, writes and runs what was posted, and the calls it makes
for those it found gone begin only when its own loop is done. Other clients are let in between the loops: one that is let in
within a loop makes the next step of it undefined. A client that stays in the deque is therefore sent every message in the
order in which the loops began, and any two such clients are sent the same.
-/

namespace Netzwerk

open Cpp Transition

variable {T : Type}

/-- The call is not for the client alone and does not pass it over. -/
def Frame.Common (c : ConnPtr) : Frame T → Prop
  | .client d _ => d ≠ some c
  | .group _ _ left _ => some c ∉ left
  | .all _ pIgnoreClient _ _ _ => pIgnoreClient ≠ some c
  | _ => True

/-- The call is in the loop of `MessageAllClients`. -/
def Frame.SendsToAll : Frame T → Prop
  | .all _ _ _ _ _ => True
  | _ => False

namespace ServerThreads

/-- The client is open whenever a Message function goes on, and no call is for it alone or passes it over. -/
def Attends (c : ConnPtr) (s : ServerThreads T) : ServerThreadEvent T → Prop
  | .call call => some c ∉ call.pointers
  | .run _ => (s.conns c).isOpen = true
  | _ => True

/-- How far the client was told what `MessageAllClients` began to send: all of it, or all but the message of the loop under way,
which has the client before it. -/
def Told (c : ConnPtr) (sent begun : List (Message T)) (s : ServerThreads T) : Prop :=
  match s.frames with
  | .all msg _ i size _ :: _ =>
    i ≤ size ∧ some c ∈ s.deqConnections.take size ∧
      if some c ∈ s.deqConnections.take i then sent = begun else begun = sent ++ [msg]
  | _ => sent = begun

/-- What holds of a client while it stays. -/
structure Attending (c : ConnPtr) (ws : List (Sending T)) (s : ServerThreads T) : Prop where
  made : c < s.made
  once : s.deqConnections.count (some c) = 1
  common : ∀ f ∈ s.frames, f.Common c
  waiting : ∀ f ∈ s.frames.tail, ¬f.SendsToAll
  told : s.Told c (sendsTo c ws) (toAlls ws)

section

variable {s t : ServerThreads T} {c : ConnPtr} {ws vs : List (Sending T)} {rest : List (Frame T)}

theorem Told.eq {sent begun : List (Message T)} (h : s.Told c sent begun) (hhead : ∀ f ∈ s.frames.head?, ¬f.SendsToAll) :
    sent = begun := by
  unfold Told at h
  split at h
  · rename_i msg ign i size after rest hframes
    exact (hhead (.all msg ign i size after) (by rw [hframes]; rfl) trivial).elim
  · exact h

theorem told_of_eq {sent begun : List (Message T)} (h : sent = begun) (hhead : ∀ f ∈ s.frames.head?, ¬f.SendsToAll) :
    s.Told c sent begun := by
  unfold Told
  split
  · rename_i msg ign i size after rest hframes
    exact (hhead (.all msg ign i size after) (by rw [hframes]; rfl) trivial).elim
  · exact h

/-- The calls are the same, and the client is where it was. -/
theorem Told.of_same {sent begun : List (Message T)} (h : s.Told c sent begun) (hframes : t.frames = s.frames)
    (hdeq : ∀ j, some c ∈ t.deqConnections.take j ↔ some c ∈ s.deqConnections.take j) : t.Told c sent begun := by
  unfold Told at h ⊢
  simp only [hframes, hdeq]
  exact h

/-- An event after which no loop of `MessageAllClients` is under way. -/
theorem Attending.rests (h : s.Attending c ws) (heq : sendsTo c ws = toAlls ws) (hmade : t.made = s.made)
    (honce : t.deqConnections.count (some c) = s.deqConnections.count (some c)) (hcommon : ∀ f ∈ t.frames, f.Common c)
    (hframes : ∀ f ∈ t.frames, ¬f.SendsToAll) (hsends : sendsTo c vs = []) (hbegins : toAlls vs = []) :
    t.Attending c (ws ++ vs) where
  made := hmade ▸ h.made
  once := honce.trans h.once
  common := hcommon
  waiting := fun f hf => hframes f (List.mem_of_mem_tail hf)
  told := by
    rw [sendsTo_append, toAlls_append, hsends, hbegins, List.append_nil, List.append_nil]
    exact told_of_eq heq fun f hf => hframes f (List.mem_of_mem_head? hf)

/-- An event with which a loop of `MessageAllClients` begins. -/
theorem Attending.begins (h : s.Attending c ws) (heq : sendsTo c ws = toAlls ws) (hmade : t.made = s.made)
    (honce : t.deqConnections.count (some c) = s.deqConnections.count (some c)) {msg : Message T} {ign : Option ConnPtr}
    (hframes : t.frames = .all msg ign 0 t.deqConnections.length [] :: rest) (hign : ign ≠ some c)
    (hcommon : ∀ f ∈ rest, f.Common c) (hwaiting : ∀ f ∈ rest, ¬f.SendsToAll) (hvs : vs = [.toAll msg]) :
    t.Attending c (ws ++ vs) where
  made := hmade ▸ h.made
  once := honce.trans h.once
  common := by
    rw [hframes]
    exact List.forall_mem_cons.mpr ⟨hign, hcommon⟩
  waiting := by
    rw [hframes]
    exact hwaiting
  told := by
    have hmem : some c ∈ t.deqConnections := List.count_pos_iff.mp (by rw [honce, h.once]; exact Nat.one_pos)
    rw [Told, hframes, hvs, sendsTo_append, toAlls_append]
    refine ⟨Nat.zero_le _, by rwa [List.take_length], ?_⟩
    rw [List.take_zero, if_neg List.not_mem_nil, ← heq]
    simp [sendsTo, toAlls]

theorem sendsTo_seeSend (c : ConnPtr) (client : Option ConnPtr) (msg : Message T) :
    sendsTo c (seeSend client msg) = if client = some c then [msg] else [] := by
  cases client with
  | none => rfl
  | some d => by_cases hdc : d = c <;> simp [sendsTo, seeSend, hdc]

theorem toAlls_seeSend (client : Option ConnPtr) (msg : Message T) : toAlls (seeSend client msg) = [] := by
  cases client <;> rfl

/-- Resetting another element leaves the client where it is. -/
theorem mem_take_set_none {l : List (Option ConnPtr)} {i : Nat} {client : Option ConnPtr} (h : l[i]? = some client)
    (hclient : client ≠ some c) (j : Nat) : some c ∈ (l.set i none).take j ↔ some c ∈ l.take j := by
  rw [List.take_set]
  rcases Nat.lt_or_ge i j with hij | hij
  · have hcount := count_set_none (l := l.take j) (by rwa [List.getElem?_take_of_lt hij]) c
    rw [List.count_singleton, if_neg (by simpa using hclient), Nat.add_zero] at hcount
    rw [← List.count_pos_iff, hcount, List.count_pos_iff]
  · rw [List.set_eq_of_length_le ((List.length_take_le j l).trans hij)]

/-- The loop of `MessageAllClients` goes on by one element, to which it sends or not. -/
theorem Attending.goesOn (h : s.Attending c ws) {msg : Message T} {ign : Option ConnPtr} {i size : Nat}
    {after after' : List (Message T)} {client : Option ConnPtr} (hframes : s.frames = .all msg ign i size after :: rest)
    (hlt : i < size) (hclient : s.deqConnections[i]? = some client) (hmade : t.made = s.made)
    (hframes' : t.frames = .all msg ign (i + 1) size after' :: rest)
    (honce : t.deqConnections.count (some c) = s.deqConnections.count (some c))
    (hdeq : ∀ j, some c ∈ t.deqConnections.take j ↔ some c ∈ s.deqConnections.take j)
    (hsends : sendsTo c vs = if client = some c then [msg] else []) (hbegins : toAlls vs = []) :
    t.Attending c (ws ++ vs) := by
  have hcommon := h.common
  have hwaiting := h.waiting
  have htold := h.told
  rw [hframes] at hcommon hwaiting
  obtain ⟨hframe, hcommon⟩ := List.forall_mem_cons.mp hcommon
  refine ⟨hmade ▸ h.made, honce.trans h.once, hframes' ▸ List.forall_mem_cons.mpr ⟨hframe, hcommon⟩, hframes' ▸ hwaiting, ?_⟩
  rw [Told, hframes] at htold
  obtain ⟨_, hsize, htold⟩ := htold
  rw [Told, hframes', sendsTo_append, toAlls_append, hsends, hbegins, List.append_nil]
  refine ⟨hlt, (hdeq size).mpr hsize, ?_⟩
  have htake : s.deqConnections.take (i + 1) = s.deqConnections.take i ++ [client] := by
    rw [List.take_add_one, hclient, Option.toList_some]
  simp only [hdeq, htake, List.mem_append, List.mem_singleton]
  by_cases hc : client = some c
  · -- it is the only element of the deque that is the client
    have hnot : some c ∉ s.deqConnections.take i := by
      intro hmem
      have hcount := h.once
      rw [← List.take_append_drop (i + 1) s.deqConnections, htake, List.count_append, List.count_append, hc,
        List.count_singleton_self] at hcount
      have := List.count_pos_iff.mpr hmem
      omega
    rw [if_neg hnot] at htold
    rw [if_pos hc, if_pos (.inr hc.symm)]
    exact htold.symm
  · simp only [hc, Ne.symm hc, or_false, if_false, List.append_nil]
    exact htold

/-- A loop of `MessageAllClients` that is over has told the client everything. -/
theorem Attending.loopOver (h : s.Attending c ws) {msg : Message T} {ign : Option ConnPtr} {i size : Nat}
    {after : List (Message T)} (hframes : s.frames = .all msg ign i size after :: rest) (hi : ¬i < size) :
    sendsTo c ws = toAlls ws := by
  have htold := h.told
  rw [Told, hframes] at htold
  obtain ⟨hle, hsize, htold⟩ := htold
  obtain rfl : i = size := Nat.le_antisymm hle (Nat.not_lt.mp hi)
  rwa [if_pos hsize] at htold

/-- The innermost call is not in the loop of `MessageAllClients`. -/
theorem Attending.quiet (h : s.Attending c ws) {frame : Frame T} (hframes : s.frames = frame :: rest)
    (hframe : ¬frame.SendsToAll) : sendsTo c ws = toAlls ws :=
  h.told.eq fun f hf => by
    rw [hframes] at hf
    cases hf
    exact hframe

/-- The loop of `MessageAllClients` passes a client over that is not this one. -/
theorem Attending.passesOver (h : s.Attending c ws) {msg : Message T} {ign : Option ConnPtr} {i size : Nat}
    {after after' : List (Message T)} {client : Option ConnPtr} (hframes : s.frames = .all msg ign i size after :: rest)
    (hlt : i < size) (hclient : s.deqConnections[i]? = some client) (hnot : client ≠ some c) (hmade : t.made = s.made)
    (hframes' : t.frames = .all msg ign (i + 1) size after' :: rest)
    (honce : t.deqConnections.count (some c) = s.deqConnections.count (some c))
    (hdeq : ∀ j, some c ∈ t.deqConnections.take j ↔ some c ∈ s.deqConnections.take j) : t.Attending c (ws ++ []) :=
  h.goesOn hframes hlt hclient hmade hframes' honce hdeq (if_neg hnot).symm rfl

/-- The next step of a call. -/
theorem Attending.frame {frame : Frame T} {toSend : Message T} (h : s.Attending c ws) (hopen : (s.conns c).isOpen = true)
    (hframes : s.frames = frame :: rest) (ht : s.frameStep rest toSend frame = .ok t) :
    t.Attending c (ws ++ s.frameSends toSend frame) := by
  obtain ⟨hframe, hcommon⟩ : frame.Common c ∧ ∀ f ∈ rest, f.Common c := List.forall_mem_cons.mp (hframes ▸ h.common)
  have hwaiting : ∀ f ∈ rest, ¬f.SendsToAll := by
    have := h.waiting
    rwa [hframes] at this
  have hcons : ∀ {f : Frame T}, f.Common c → ∀ g ∈ f :: rest, g.Common c := fun hf => List.forall_mem_cons.mpr ⟨hf, hcommon⟩
  have hconsWaiting : ∀ {f : Frame T}, ¬f.SendsToAll → ∀ g ∈ f :: rest, ¬g.SendsToAll :=
    fun hf => List.forall_mem_cons.mpr ⟨hf, hwaiting⟩
  cases frameStep_ok ht with
  | @clientSent client msg hconn =>
    have hsends : sendsTo c (seeSend client msg) = [] := by rw [sendsTo_seeSend, if_neg hframe]
    rw [frameSends, if_pos hconn]
    exact h.rests (h.quiet hframes fun h => h) rfl rfl (hcons trivial) (hconsWaiting fun h => h) hsends
      (toAlls_seeSend client msg)
  | clientGone hconn =>
    rw [frameSends, if_neg (Bool.not_eq_true _ ▸ hconn)]
    exact h.begins (h.quiet hframes fun h => h) rfl (count_eraseNull s c) rfl (Option.some_ne_none c).symm hcommon hwaiting rfl
  | @groupSent msg through left client after hconn =>
    obtain ⟨hclient, hleft⟩ : some c ≠ client ∧ some c ∉ left := not_or.mp (List.mem_cons.not.mp hframe)
    have hsends : sendsTo c (seeSend client msg) = [] := by rw [sendsTo_seeSend, if_neg hclient.symm]
    rw [frameSends, if_pos hconn]
    exact h.rests (h.quiet hframes fun h => h) rfl rfl (hcons hleft) (hconsWaiting fun h => h) hsends
      (toAlls_seeSend client msg)
  | groupGone hconn =>
    obtain ⟨_, hleft⟩ := not_or.mp (List.mem_cons.not.mp hframe)
    rw [frameSends, if_neg (Bool.not_eq_true _ ▸ hconn)]
    exact h.rests (h.quiet hframes fun h => h) rfl rfl (hcons hleft) (hconsWaiting fun h => h) rfl rfl
  | groupErased =>
    exact h.rests (h.quiet hframes fun h => h) rfl (count_eraseNull s c) (hcons trivial) (hconsWaiting fun h => h) rfl rfl
  | groupDone => exact h.rests (h.quiet hframes fun h => h) rfl rfl (hcons trivial) (hconsWaiting fun h => h) rfl rfl
  | allIgnored hi hclient =>
    rw [frameSends, if_pos hi, hclient, Option.toList_some, List.flatMap_singleton, if_neg fun hsent => hsent.1 rfl]
    exact h.passesOver hframes hi hclient hframe rfl rfl rfl fun _ => Iff.rfl
  | @allSent msg ign client i after hi hclient hne hconn =>
    rw [frameSends, if_pos hi, hclient, Option.toList_some, List.flatMap_singleton, if_pos ⟨hne, hconn⟩]
    exact h.goesOn hframes hi hclient rfl rfl rfl (fun _ => Iff.rfl) (sendsTo_seeSend c client msg) (toAlls_seeSend client msg)
  | @allGone msg ign client i after hi hclient hne hconn =>
    have hnot : client ≠ some c := by
      rintro rfl
      exact Bool.false_ne_true (hconn.symm.trans hopen)
    have hcount := count_set_none hclient c
    rw [List.count_singleton, if_neg (by simpa using hnot)] at hcount
    rw [frameSends, if_pos hi, hclient, Option.toList_some, List.flatMap_singleton,
      if_neg fun hsent => Bool.false_ne_true (hconn.symm.trans hsent.2)]
    exact h.passesOver hframes hi hclient hnot rfl rfl hcount (mem_take_set_none hclient hnot)
  | allErased hi =>
    rw [frameSends, if_neg hi]
    exact h.rests (h.loopOver hframes hi) rfl (count_eraseNull s c) (hcons trivial) (hconsWaiting fun h => h) rfl rfl
  | allDone hi =>
    rw [frameSends, if_neg hi]
    exact h.rests (h.loopOver hframes hi) rfl rfl (hcons trivial) (hconsWaiting fun h => h) rfl rfl
  | afterNext =>
    exact h.begins (h.quiet hframes fun h => h) rfl rfl rfl (Option.some_ne_none c).symm (hcons trivial)
      (hconsWaiting fun h => h) rfl
  | afterDone => exact h.rests (h.quiet hframes fun h => h) rfl rfl hcommon hwaiting rfl rfl
  | updatePopped => exact h.rests (h.quiet hframes fun h => h) rfl rfl (hcons trivial) (hconsWaiting fun h => h) rfl rfl
  | updateDone => exact h.rests (h.quiet hframes fun h => h) rfl rfl hcommon hwaiting rfl rfl
  | onMessageDone => exact h.rests (h.quiet hframes fun h => h) rfl rfl (hcons trivial) (hconsWaiting fun h => h) rfl rfl

/-- A step that leaves the deque and the calls alone, and in which nothing is sent. -/
theorem Attending.same (h : s.Attending c ws) (hmade : c < t.made) (hdeq : t.deqConnections = s.deqConnections)
    (hframes : t.frames = s.frames) (hsends : sendsTo c vs = []) (hbegins : toAlls vs = []) : t.Attending c (ws ++ vs) := by
  refine ⟨hmade, hdeq ▸ h.once, hframes ▸ h.common, hframes ▸ h.waiting, ?_⟩
  rw [sendsTo_append, toAlls_append, hsends, hbegins, List.append_nil, List.append_nil]
  exact h.told.of_same hframes fun j => by rw [hdeq]

/-- Where a call can begin, no loop of `MessageAllClients` is under way. -/
theorem Attending.canCall (h : s.Attending c ws) (hcan : s.CanCall) :
    sendsTo c ws = toAlls ws ∧ ∀ f ∈ s.frames, ¬f.SendsToAll := by
  have hhead : ∀ f ∈ s.frames.head?, ¬f.SendsToAll := by
    intro f hf
    unfold CanCall at hcan
    split at hcan
    · rename_i hframes
      rw [hframes] at hf
      cases hf
    · rename_i msg n m rest hframes
      rw [hframes] at hf
      cases hf
      exact fun h => h
    · exact hcan.elim
  refine ⟨h.told.eq hhead, fun f hf => ?_⟩
  cases hframes : s.frames with
  | nil =>
    rw [hframes] at hf
    cases hf
  | cons g rest =>
    have hwaiting := h.waiting
    rw [hframes] at hf hhead hwaiting
    rcases List.mem_cons.mp hf with rfl | hf
    · exact hhead _ rfl
    · exact hwaiting f hf

variable [StandardLayout (MessageHeader T)]

/-- Every event a client attends. -/
theorem Attending.step (h : s.Attending c ws) {e : ServerThreadEvent T} (hstep : (machine.when (Attends c)).Step s e t) :
    t.Attending c (ws ++ s.sending e) := by
  obtain ⟨⟨hen, hattends⟩, ht⟩ := hstep
  cases e with
  | accepted msg request keep =>
    cases ht
    cases request with
    | false =>
      exact h.same (Nat.lt_succ_of_lt h.made) rfl rfl rfl rfl
    | true =>
      have hnot : some c ≠ some s.made := fun heq => Nat.lt_irrefl _ (Option.some.inj heq ▸ h.made)
      have hmem : ∀ j, some c ∈ (s.deqConnections ++ [some s.made]).take j ↔ some c ∈ s.deqConnections.take j := by
        intro j
        rw [List.take_append, List.mem_append]
        refine or_iff_left fun hmem => hnot ?_
        exact List.mem_singleton.mp (List.mem_of_mem_take hmem)
      refine ⟨Nat.lt_succ_of_lt h.made, ?_, h.common, h.waiting, ?_⟩
      · change (s.deqConnections ++ [some s.made]).count (some c) = 1
        rw [List.count_append, h.once, List.count_eq_zero.mpr (by simpa using hnot)]
      · rw [show s.sending _ = [] from rfl, List.append_nil]
        exact h.told.of_same rfl hmem
  | write c e =>
    simp only [machine, Machine.when, next] at ht
    obtain ⟨conn, owned, _, rfl⟩ := onConnection_ok ht
    exact h.same h.made rfl rfl rfl rfl
  | read c e =>
    simp only [machine, Machine.when, next] at ht
    obtain ⟨conn, owned, _, rfl⟩ := onConnection_ok ht
    exact h.same h.made rfl rfl rfl rfl
  | posted =>
    simp only [machine, Machine.when, next] at ht
    obtain ⟨⟨c, msg⟩, posted, hposted⟩ := List.exists_cons_of_ne_nil (show s.posted ≠ [] from hen)
    rw [hposted] at ht
    obtain ⟨conn, owned, _, rfl⟩ := onConnection_ok ht
    exact h.same h.made rfl rfl rfl rfl
  | call call =>
    obtain ⟨heq, hframes⟩ := h.canCall hen.1
    have hattends : some c ∉ call.pointers := hattends
    cases call with
    | client client msg =>
      cases ht
      exact h.rests heq rfl rfl (List.forall_mem_cons.mpr ⟨fun hc => hattends (hc ▸ List.mem_singleton_self _), h.common⟩)
        (List.forall_mem_cons.mpr ⟨fun h => h, hframes⟩) rfl rfl
    | group msg group =>
      cases ht
      exact h.rests heq rfl rfl (List.forall_mem_cons.mpr ⟨hattends, h.common⟩)
        (List.forall_mem_cons.mpr ⟨fun h => h, hframes⟩) rfl rfl
    | all msg ign =>
      cases ht
      exact h.begins heq rfl rfl rfl (fun hc => hattends (hc ▸ List.mem_singleton_self _)) h.common hframes rfl
  | update nMaxMessages =>
    obtain ⟨heq, hframes⟩ := h.canCall hen
    cases ht
    exact h.rests heq rfl rfl (List.forall_mem_cons.mpr ⟨trivial, h.common⟩)
      (List.forall_mem_cons.mpr ⟨fun h => h, hframes⟩) rfl rfl
  | run toSend =>
    obtain ⟨frame, rest, hframes⟩ := List.exists_cons_of_ne_nil (show s.frames ≠ [] from hen)
    simp only [machine, Machine.when, next, hframes] at ht
    simp only [sending, hframes, List.head?_cons, Option.map_some, Option.getD_some]
    exact h.frame hattends hframes ht
  | hold c =>
    cases ht
    exact h.same h.made rfl rfl rfl rfl
  | letGo i =>
    cases ht
    exact h.same h.made rfl rfl rfl rfl

end

end ServerThreads

namespace ServerThreads

variable {c : ConnPtr} {ws : List (Sending T)} {s t : ServerThreads T}

/-- A client that stays was sent the messages in the order in which `MessageAllClients` began with them, up to the last one. -/
theorem Attending.inOrder (h : t.Attending c ws) : sendsTo c ws = toAlls ws ∨ ∃ msg, toAlls ws = sendsTo c ws ++ [msg] := by
  have htold := h.told
  unfold Told at htold
  split at htold
  · obtain ⟨_, _, htold⟩ := htold
    split at htold
    · exact .inl htold
    · exact .inr ⟨_, htold⟩
  · exact .inl htold

theorem Attending.sends_isPrefix (h : t.Attending c ws) : sendsTo c ws <+: toAlls ws := by
  rcases h.inOrder with heq | ⟨msg, heq⟩
  · rw [heq]
  · exact ⟨[msg], heq.symm⟩

/-- A run from a state without calls under way, all of whose events the clients attend. -/
theorem attending_of_seen [StandardLayout (MessageHeader T)] {cs : Set ConnPtr} (hframes : s.frames = [])
    (hmade : ∀ c ∈ cs, c < s.made) (honce : ∀ c ∈ cs, s.deqConnections.count (some c) = 1)
    (h : Seen (machine.when fun s e => ∀ c ∈ cs, Attends c s e) sending s ws t) (hc : c ∈ cs) : t.Attending c ws := by
  have hstart : s.Attending c [] := by
    refine ⟨hmade c hc, honce c hc, ?_, ?_, told_of_eq rfl ?_⟩ <;> simp [hframes]
  refine h.invariant (fun ws t => t.Attending c ws) hstart ?_
  rintro ws t e u ht ⟨⟨hen, hall⟩, hu⟩
  exact ht.step ⟨⟨hen, hall c hc⟩, hu⟩

end ServerThreads

/-- Clients that stay while messages are sent to all. -/
structure ToldAlike (cs : Set ConnPtr) (ws : List (Sending T)) (s : ServerThreads T) : Prop where
  /-- Each of them was sent the messages in the order in which `MessageAllClients` began with them, up to the last one. -/
  inOrder : ∀ c ∈ cs, sendsTo c ws = toAlls ws ∨ ∃ msg, toAlls ws = sendsTo c ws ++ [msg]
  /-- Where no call is under way, all of them. -/
  settled : s.frames = [] → ∀ c ∈ cs, sendsTo c ws = toAlls ws
  /-- Of what two of them were sent, one is a first part of the other. -/
  alike : ∀ c ∈ cs, ∀ d ∈ cs, sendsTo c ws <+: sendsTo d ws ∨ sendsTo d ws <+: sendsTo c ws

/-- For every interleaving of the two threads from a state without calls under way, for clients that are in the deque once, are
open whenever a Message function goes on, and are not treated apart by a call. -/
theorem told_alike [StandardLayout (MessageHeader T)] {cs : Set ConnPtr} {s t : ServerThreads T} {ws : List (Sending T)}
    (hframes : s.frames = []) (hmade : ∀ c ∈ cs, c < s.made) (honce : ∀ c ∈ cs, s.deqConnections.count (some c) = 1)
    (h : Seen (ServerThreads.machine.when fun s e => ∀ c ∈ cs, ServerThreads.Attends c s e) ServerThreads.sending s ws t) :
    ToldAlike cs ws t := by
  have hattending : ∀ c ∈ cs, t.Attending c ws := fun c hc => ServerThreads.attending_of_seen hframes hmade honce h hc
  refine ⟨fun c hc => (hattending c hc).inOrder, fun hnone c hc => (hattending c hc).told.eq (by simp [hnone]),
    fun c hc d hd => ?_⟩
  exact List.prefix_or_prefix_of_prefix (hattending c hc).sends_isPrefix (hattending d hd).sends_isPrefix

/-- Two clients are sent a message, a third is let in, and of the next message only the first was sent its copy. -/
theorem told_alike_two : ∃ t : ServerThreads UInt32,
    ToldAlike {0, 1} [.toAll ⟨⟨7, 0⟩, []⟩, .send 0 ⟨⟨7, 0⟩, []⟩, .send 1 ⟨⟨7, 0⟩, []⟩, .toAll ⟨⟨8, 0⟩, []⟩,
      .send 0 ⟨⟨8, 0⟩, []⟩] t ∧ t.deqConnections = [some 0, some 1, some 2] := by
  obtain ⟨t, hseen, hdeq⟩ : ∃ t,
      Seen (ServerThreads.machine.when fun s e => ∀ c ∈ ({0, 1} : Set ConnPtr), ServerThreads.Attends c s e)
        ServerThreads.sending ({ conns := newConns, made := 2, deqConnections := [some 0, some 1] } : ServerThreads UInt32)
        [.toAll ⟨⟨7, 0⟩, []⟩, .send 0 ⟨⟨7, 0⟩, []⟩, .send 1 ⟨⟨7, 0⟩, []⟩, .toAll ⟨⟨8, 0⟩, []⟩, .send 0 ⟨⟨8, 0⟩, []⟩] t ∧
      t.deqConnections = [some 0, some 1, some 2] := by
    have hnobody : ∀ c ∈ ({0, 1} : Set ConnPtr), some c ∉ [(none : Option ConnPtr)] := by simp
    have hcopied : ∀ c, some c ∉ [(none : Option ConnPtr)] := by simp
    refine ⟨_, Seen.cons (a := ServerThreadEvent.call (.all ⟨⟨7, 0⟩, []⟩ none))
        ⟨⟨⟨trivial, fun c hc => (hcopied c hc).elim⟩, hnobody⟩, rfl⟩ <|
      Seen.cons (a := ServerThreadEvent.run default) ⟨⟨List.cons_ne_nil _ _, ?_⟩, rfl⟩ <|
      Seen.cons (a := ServerThreadEvent.run default) ⟨⟨List.cons_ne_nil _ _, ?_⟩, rfl⟩ <|
      -- the loop is over, and the call returns
      Seen.cons (a := ServerThreadEvent.run default) ⟨⟨List.cons_ne_nil _ _, ?_⟩, rfl⟩ <|
      Seen.cons (a := ServerThreadEvent.run default) ⟨⟨List.cons_ne_nil _ _, ?_⟩, rfl⟩ <|
      Seen.cons (a := ServerThreadEvent.accepted default true false) ⟨⟨trivial, fun _ _ => trivial⟩, rfl⟩ <|
      Seen.cons (a := ServerThreadEvent.call (.all ⟨⟨8, 0⟩, []⟩ none))
        ⟨⟨⟨trivial, fun c hc => (hcopied c hc).elim⟩, hnobody⟩, rfl⟩ <|
      Seen.cons (a := ServerThreadEvent.run default) ⟨⟨List.cons_ne_nil _ _, ?_⟩, rfl⟩ Seen.nil, rfl⟩
    all_goals
      rintro c (rfl | rfl) <;> rfl
  refine ⟨t, told_alike rfl ?_ ?_ hseen, hdeq⟩
  · rintro c (rfl | rfl) <;> decide
  · rintro c (rfl | rfl) <;> decide

end Netzwerk
