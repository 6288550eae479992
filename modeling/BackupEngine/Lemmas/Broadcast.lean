import BackupEngine.Lemmas.Disconnect

/-!
# What a broadcast does

The events of a call of `MessageAllClients` in order. Its loop asks every connection it does not skip once and either sends to
it or treats it as gone, so that an event is also an answer of `IsConnected`; what the call leaves is told by its events.
-/

namespace Netzwerk

variable {T : Type}

/-- The connection that was asked before an event, and its answer. -/
def ServerEvent.observed : ServerEvent T → Option (ConnPtr × Bool)
  | .send client _ => some (client, true)
  | .onClientDisconnect client => client.map (·, false)

/-- The connections `OnClientDisconnect` is called for. -/
def gone (es : List (ServerEvent T)) : List ConnPtr :=
  es.filterMap fun e => match e with
    | .onClientDisconnect client => client
    | .send _ _ => none

/-- The messages sent to a connection. -/
def sentTo (c : ConnPtr) (es : List (ServerEvent T)) : List (Message T) :=
  es.filterMap fun e => match e with
    | .send client msg => if client = c then some msg else none
    | .onClientDisconnect _ => none

/-- The messages `OnClientDisconnect` returns, where `log` is what happened before. -/
def farewells (w : World T) : List (ServerEvent T) → List (ServerEvent T) → List (Message T)
  | _, [] => []
  | log, .send client msg :: es => farewells w (log ++ [.send client msg]) es
  | log, .onClientDisconnect client :: es =>
    w.onClientDisconnect log client :: farewells w (log ++ [.onClientDisconnect client]) es

/-- Every event is what the answer of `IsConnected` calls for, the first of them asked as number `n`. -/
def Answers (w : World T) (n : Nat) (es : List (ServerEvent T)) : Prop :=
  ∀ k e, es[k]? = some e → ∃ c, e.observed = some (c, w.isConnected (n + k) c)

/-- The connection answers that it is connected whenever it is asked during the events. -/
def StaysOpen (w : World T) (n : Nat) (es : List (ServerEvent T)) (c : ConnPtr) : Prop :=
  ∀ k < es.length, w.isConnected (n + k) c = true

variable {w : World T} {n : Nat} {c : ConnPtr} {es es' log : List (ServerEvent T)}

/-! ## Events one after the other -/

@[simp] theorem gone_append : gone (es ++ es') = gone es ++ gone es' := List.filterMap_append

@[simp] theorem sentTo_append : sentTo c (es ++ es') = sentTo c es ++ sentTo c es' := List.filterMap_append

theorem sentTo_send (d : ConnPtr) (m : Message T) :
    sentTo c (.send d m :: es) = if d = c then m :: sentTo c es else sentTo c es := by
  by_cases h : d = c <;> simp [sentTo, h]

@[simp] theorem sentTo_onClientDisconnect (client : Option ConnPtr) :
    sentTo c (.onClientDisconnect client :: es) = sentTo c es := rfl

@[simp] theorem gone_send (d : ConnPtr) (m : Message T) : gone (.send d m :: es) = gone es := rfl

@[simp] theorem gone_onClientDisconnect (d : ConnPtr) : gone (.onClientDisconnect (some d) :: es) = d :: gone es := rfl

theorem farewells_append : farewells w log (es ++ es') = farewells w log es ++ farewells w (log ++ es) es' := by
  induction es generalizing log with
  | nil => rw [List.nil_append, List.append_nil]; rfl
  | cons e es ih =>
    cases e with
    | send client msg => rw [List.cons_append, farewells, farewells, ih, List.append_assoc]; rfl
    | onClientDisconnect client =>
      rw [List.cons_append, farewells, farewells, ih, List.append_assoc, List.cons_append]; rfl

theorem Answers.append (h : Answers w n es) (h' : Answers w (n + es.length) es') : Answers w n (es ++ es') := by
  intro k e hk
  rcases Nat.lt_or_ge k es.length with hlt | hge
  · rw [List.getElem?_append_left hlt] at hk
    exact h k e hk
  · rw [List.getElem?_append_right hge] at hk
    have hanswer := h' _ e hk
    rwa [Nat.add_assoc, Nat.add_sub_cancel' hge] at hanswer

theorem StaysOpen.left (h : StaysOpen w n (es ++ es') c) : StaysOpen w n es c := fun k hk =>
  h k (by rw [List.length_append]; omega)

theorem StaysOpen.right (h : StaysOpen w n (es ++ es') c) : StaysOpen w (n + es.length) es' c := fun k hk => by
  rw [Nat.add_assoc]
  exact h _ (by rw [List.length_append]; omega)

/-- A connection that stays open is not gone. -/
theorem Answers.not_mem_gone (h : Answers w n es) (hopen : StaysOpen w n es c) : c ∉ gone es := by
  intro hc
  obtain ⟨e, he, hclient⟩ := List.mem_filterMap.mp hc
  obtain ⟨k, hk⟩ := List.mem_iff_getElem?.mp he
  obtain ⟨d, hd⟩ := h k e hk
  have hlt := (List.getElem?_eq_some_iff.mp hk).1
  cases e with
  | send client msg => cases hclient
  | onClientDisconnect client =>
    obtain rfl : client = some c := hclient
    obtain ⟨rfl, hfalse⟩ := Prod.mk.inj (Option.some.inj hd)
    exact Bool.false_ne_true (hfalse.trans (hopen k hlt))

/-- The connections that are gone are those that were found closed. -/
theorem mem_gone_iff : c ∈ gone es ↔ ∃ e ∈ es, e.observed = some (c, false) := by
  refine List.mem_filterMap.trans (exists_congr fun e => and_congr_right fun _ => ?_)
  cases e with
  | send client msg => simp [ServerEvent.observed]
  | onClientDisconnect client => simp [ServerEvent.observed]

/-! ## The first pass -/

/-- What the loop of a call does with the connections of the list. -/
def firstPass (w : World T) (ignore : Option ConnPtr) (msg : Message T) : Nat → List ConnPtr → List (ServerEvent T)
  | _, [] => []
  | n, c :: cs =>
    if some c = ignore then firstPass w ignore msg n cs
    else (if w.isConnected n c then .send c msg else .onClientDisconnect (some c)) :: firstPass w ignore msg (n + 1) cs

variable {ignore : Option ConnPtr} {msg : Message T} {cs : List ConnPtr}

theorem answers_firstPass : Answers w n (firstPass w ignore msg n cs) := by
  induction cs generalizing n with
  | nil => exact nofun
  | cons c cs ih =>
    unfold firstPass
    split
    · exact ih
    · refine Answers.append (fun k e hk => ?_ : Answers w n [_]) ih
      obtain ⟨hlt, rfl⟩ := List.getElem?_eq_some_iff.mp hk
      obtain rfl := Nat.lt_one_iff.mp hlt
      cases hopen : w.isConnected n c with
      | true => exact ⟨c, by simp [ServerEvent.observed, hopen]⟩
      | false => exact ⟨c, by simp [ServerEvent.observed, hopen]⟩

/-- It asks the connections that are not skipped, in order. -/
theorem asked_firstPass : (firstPass w ignore msg n cs).filterMap (fun e => e.observed.map Prod.fst) =
    cs.filter fun c => some c ≠ ignore := by
  induction cs generalizing n with
  | nil => rfl
  | cons c cs ih =>
    unfold firstPass
    split
    · rename_i hskip
      rw [ih, List.filter_cons_of_neg (by simpa using hskip)]
    · rename_i hskip
      rw [List.filter_cons_of_pos (by simpa using hskip), List.filterMap_cons_some (b := c), ih]
      cases w.isConnected n c <;> rfl

/-- Of the list it calls `OnClientDisconnect` in order. -/
theorem gone_firstPass_sublist : (gone (firstPass w ignore msg n cs)).Sublist cs := by
  induction cs generalizing n with
  | nil => exact .slnil
  | cons c cs ih =>
    unfold firstPass
    split
    · exact ih.cons c
    · cases w.isConnected n c with
      | true => exact ih.cons c
      | false => exact ih.cons_cons c

/-- It sends `msg`, to connections of the list that are not skipped. -/
theorem of_mem_firstPass {m : Message T} (h : .send c m ∈ firstPass w ignore msg n cs) :
    c ∈ cs ∧ ignore ≠ some c ∧ m = msg := by
  induction cs generalizing n with
  | nil => cases h
  | cons d cs ih =>
    unfold firstPass at h
    split at h
    · exact (ih h).imp_left (List.mem_cons_of_mem d)
    · rename_i hskip
      rcases List.mem_cons.mp h with h | h
      · split at h
        · cases h
          exact ⟨List.mem_cons_self, Ne.symm hskip, rfl⟩
        · cases h
      · exact (ih h).imp_left (List.mem_cons_of_mem d)

variable (w n c ignore msg) in
/-- It sends to a connection once, or not at all. -/
theorem sentTo_firstPass (hnodup : cs.Nodup) :
    .send c msg ∈ firstPass w ignore msg n cs ∧ sentTo c (firstPass w ignore msg n cs) = [msg] ∨
      .send c msg ∉ firstPass w ignore msg n cs ∧ sentTo c (firstPass w ignore msg n cs) = [] := by
  induction cs generalizing n with
  | nil => exact .inr ⟨nofun, rfl⟩
  | cons d cs ih =>
    obtain ⟨hd, hnodup⟩ := List.nodup_cons.mp hnodup
    unfold firstPass
    split
    · exact ih _ hnodup
    · by_cases hopen : w.isConnected n d = true
      · rw [if_pos hopen]
        by_cases hdc : d = c
        · subst hdc
          have hrest := (ih hnodup (n := n + 1)).resolve_left fun h => hd (of_mem_firstPass h.1).1
          refine .inl ⟨List.mem_cons_self, ?_⟩
          rw [sentTo_send, if_pos rfl, hrest.2]
        · have hmem : ∀ es : List (ServerEvent T), .send c msg ∈ .send d msg :: es ↔ .send c msg ∈ es := fun es => by
            rw [List.mem_cons, ServerEvent.send.injEq, or_iff_right fun h => hdc h.1.symm]
          rw [hmem, sentTo_send, if_neg hdc]
          exact ih _ hnodup
      · have hmem : ∀ es : List (ServerEvent T), .send c msg ∈ .onClientDisconnect (some d) :: es ↔ .send c msg ∈ es :=
          fun es => by rw [List.mem_cons, or_iff_right fun h => nomatch h]
        rw [if_neg hopen, hmem, sentTo_onClientDisconnect]
        exact ih _ hnodup

/-- It sends to a connection that stays open and is not skipped. -/
theorem mem_firstPass (hc : c ∈ cs) (hignore : ignore ≠ some c) (hopen : StaysOpen w n (firstPass w ignore msg n cs) c) :
    .send c msg ∈ firstPass w ignore msg n cs := by
  induction cs generalizing n with
  | nil => cases hc
  | cons d cs ih =>
    unfold firstPass at hopen ⊢
    split
    · rename_i hskip
      rw [if_pos hskip] at hopen
      refine ih ((List.mem_cons.mp hc).resolve_left ?_) hopen
      rintro rfl
      exact hignore hskip.symm
    · rename_i hskip
      rw [if_neg hskip] at hopen
      rcases List.mem_cons.mp hc with rfl | hc
      · rw [if_pos (show w.isConnected n c = true from hopen 0 (Nat.succ_pos _))]
        exact List.mem_cons_self
      · have hlater : StaysOpen w (n + 1) (firstPass w ignore msg (n + 1) cs) c := by
          rw [← List.singleton_append] at hopen
          exact hopen.right
        exact List.mem_cons_of_mem _ (ih hc hlater)

namespace Server

variable {s t : Server T}

theorem messageEach_open {skip : Option ConnPtr → Bool} {clients clients' : List (Option ConnPtr)} {after : List (Message T)}
    (hskip : skip (some c) = false) (hopen : w.isConnected s.asked c = true)
    (h : messageEach w skip msg clients { s with asked := s.asked + 1, log := s.log ++ [.send c msg] } = (clients', after, t)) :
    messageEach w skip msg (some c :: clients) s = (some c :: clients', after, t) := by
  rw [messageEach, hskip]
  simp only [isConnected, hopen, if_true, Bool.false_eq_true, if_false]
  rw [show send _ (some c) msg = ({ s with asked := s.asked + 1, log := s.log ++ [.send c msg] } : Server T) from rfl, h]

theorem messageEach_closed {skip : Option ConnPtr → Bool} {clients clients' : List (Option ConnPtr)}
    {after : List (Message T)} (hskip : skip (some c) = false) (hopen : w.isConnected s.asked c = false)
    (h : messageEach w skip msg clients { s with asked := s.asked + 1, log := s.log ++ [.onClientDisconnect (some c)] } =
      (clients', after, t)) :
    messageEach w skip msg (some c :: clients) s =
      (none :: clients', w.onClientDisconnect s.log (some c) :: after, t) := by
  rw [messageEach, hskip]
  simp only [isConnected, hopen, Bool.false_eq_true, if_false, onClientDisconnect, h]

variable (w ignore msg) in
/-- The loop makes the events of the first pass, collects what `OnClientDisconnect` returns and resets the elements it was
called for. -/
theorem messageEach_firstPass (hnodup : cs.Nodup) (s : Server T) :
    ∃ clients, messageEach w (· == ignore) msg (cs.map some) s =
        (clients, farewells w s.log (firstPass w ignore msg s.asked cs),
          { s with
            asked := s.asked + (firstPass w ignore msg s.asked cs).length
            log := s.log ++ firstPass w ignore msg s.asked cs }) ∧
      clients.filter (· ≠ none) = (cs.filter (· ∉ gone (firstPass w ignore msg s.asked cs))).map some := by
  induction cs generalizing s with
  | nil => exact ⟨[], by simp [messageEach, firstPass, farewells], rfl⟩
  | cons c cs ih =>
    obtain ⟨hc, hnodup⟩ := List.nodup_cons.mp hnodup
    have hnot : ∀ n, c ∉ gone (firstPass w ignore msg n cs) := fun n h => hc (gone_firstPass_sublist.subset h)
    have hlength : ∀ l : List (ServerEvent T), s.asked + 1 + l.length = s.asked + (l.length + 1) := fun l => by omega
    rw [List.map_cons]
    by_cases hskip : some c = ignore
    · obtain ⟨clients, heach, hfilter⟩ := ih hnodup s
      refine ⟨some c :: clients, ?_, ?_⟩
      · simp [messageEach, firstPass, hskip, heach]
      · simp only [firstPass, if_pos hskip]
        rw [List.filter_cons_of_pos (by simp), List.filter_cons_of_pos (by simpa using hnot _), List.map_cons, hfilter]
    have hne : (some c == ignore) = false := by simpa using hskip
    simp only [firstPass, if_neg hskip]
    cases hopen : w.isConnected s.asked c with
    | true =>
      obtain ⟨clients, heach, hfilter⟩ := ih hnodup { s with asked := s.asked + 1, log := s.log ++ [.send c msg] }
      refine ⟨some c :: clients, ?_, ?_⟩
      · rw [messageEach_open (w := w) (c := c) hne hopen heach]
        simp only [hlength, List.append_assoc, List.singleton_append, if_true, List.length_cons, farewells]
      · simp only [if_true, gone_send]
        rw [List.filter_cons_of_pos (by simp), List.filter_cons_of_pos (by simpa using hnot _), List.map_cons, hfilter]
    | false =>
      obtain ⟨clients, heach, hfilter⟩ := ih hnodup { s with
        asked := s.asked + 1
        log := s.log ++ [.onClientDisconnect (some c)] }
      refine ⟨none :: clients, ?_, ?_⟩
      · rw [messageEach_closed (w := w) (c := c) hne hopen heach]
        simp only [hlength, List.append_assoc, List.singleton_append, Bool.false_eq_true, if_false, List.length_cons,
          farewells]
      · simp only [Bool.false_eq_true, if_false, gone_onClientDisconnect]
        rw [List.filter_cons_of_neg (by simp), List.filter_cons_of_neg (by simp), hfilter]
        refine congrArg _ (List.filter_congr fun d hd => ?_)
        have hdc : d ≠ c := fun h => hc (h ▸ hd)
        simp [hdc]

/-! ## The whole call -/

/-- What the events `es` leave of a server whose list is `cs`. -/
structure Effect (w : World T) (s : Server T) (cs : List ConnPtr) (es : List (ServerEvent T)) (t : Server T) : Prop where
  log : t.log = s.log ++ es
  asked : t.asked = s.asked + es.length
  answers : Answers w s.asked es
  nodup : (gone es).Nodup
  gone : Netzwerk.gone es ⊆ cs
  deqConnections : t.deqConnections = (cs.filter (· ∉ Netzwerk.gone es)).map some
  others : ∀ c ∉ cs, sentTo c es = []

/-- Every connection is sent each of the messages and of the farewells once at most, and one that stays open exactly once. -/
def Delivers (w : World T) (s : Server T) (cs : List ConnPtr) (es : List (ServerEvent T)) (own : List (Message T)) : Prop :=
  ∀ c ∈ cs, (sentTo c es).Subperm (own ++ farewells w s.log es) ∧
    (StaysOpen w s.asked es c → (sentTo c es).Perm (own ++ farewells w s.log es))

variable {u : Server T}

theorem Effect.refl (hdeq : s.deqConnections = cs.map some) : Effect w s cs [] s where
  log := (List.append_nil _).symm
  asked := rfl
  answers := nofun
  nodup := List.nodup_nil
  gone := List.nil_subset _
  deqConnections := by
    rw [hdeq]
    exact congrArg _ (List.filter_eq_self.mpr fun _ _ => rfl).symm
  others := fun _ _ => rfl

/-- The connections that are left are those that are left of what was left. -/
theorem filter_gone_append (cs : List ConnPtr) :
    (cs.filter (· ∉ gone es)).filter (· ∉ gone es') = cs.filter (· ∉ gone (es ++ es')) := by
  rw [List.filter_filter]
  refine List.filter_congr fun c _ => ?_
  rw [gone_append, ← Bool.decide_and, decide_eq_decide, List.mem_append, not_or]
  exact And.comm

theorem Effect.trans (h : Effect w s cs es t) (h' : Effect w t (cs.filter (· ∉ Netzwerk.gone es)) es' u) :
    Effect w s cs (es ++ es') u where
  log := by rw [h'.log, h.log, List.append_assoc]
  asked := by rw [h'.asked, h.asked, List.length_append, Nat.add_assoc]
  answers := h.answers.append (h.asked ▸ h'.answers)
  nodup := by
    rw [gone_append]
    refine h.nodup.append h'.nodup fun c hc hc' => ?_
    exact of_decide_eq_true (List.mem_filter.mp (h'.gone hc')).2 hc
  gone := by
    rw [gone_append]
    exact List.append_subset.mpr ⟨h.gone, fun c hc => (List.mem_filter.mp (h'.gone hc)).1⟩
  deqConnections := by rw [h'.deqConnections, filter_gone_append]
  others := by
    intro c hc
    rw [sentTo_append, h.others c hc, h'.others c fun hmem => hc (List.mem_filter.mp hmem).1]
    rfl

/-- What is delivered by the events of one after the other. -/
theorem Delivers.append {own own' : List (Message T)} (he : Effect w s cs es t)
    (he' : Effect w t (cs.filter (· ∉ gone es)) es' u) (h : Delivers w s cs es own)
    (h' : Delivers w t (cs.filter (· ∉ gone es)) es' own') : Delivers w s cs (es ++ es') (own ++ own') := by
  intro c hc
  have hperm : (own ++ own' ++ farewells w s.log (es ++ es')).Perm
      (own ++ farewells w s.log es ++ (own' ++ farewells w t.log es')) := by
    rw [farewells_append, he.log, List.append_assoc, List.append_assoc]
    exact (List.perm_append_comm_assoc _ _ _).append_left own
  rw [sentTo_append]
  by_cases hgone : c ∈ gone es
  · have hleft : c ∉ cs.filter (· ∉ gone es) := fun hmem => of_decide_eq_true (List.mem_filter.mp hmem).2 hgone
    rw [he'.others c hleft, List.append_nil]
    refine ⟨?_, fun hopen => absurd hgone (he.answers.not_mem_gone hopen.left)⟩
    exact ((h c hc).1.trans (List.sublist_append_left _ _).subperm).trans hperm.symm.subperm
  · have hleft : c ∈ cs.filter (· ∉ gone es) := List.mem_filter.mpr ⟨hc, decide_eq_true hgone⟩
    refine ⟨((h c hc).1.append (h' c hleft).1).trans hperm.symm.subperm, fun hopen => ?_⟩
    exact (((h c hc).2 hopen.left).append ((h' c hleft).2 (he.asked ▸ hopen.right))).trans hperm.symm

/-- The loop over the farewells, where each call has its effect. -/
theorem foldlM_effect (call : Server T → Message T → Option (Server T)) (size : Nat)
    (hcall : ∀ (s : Server T) (msg : Message T) (cs : List ConnPtr), s.deqConnections = cs.map some → cs.Nodup →
      cs.length ≤ size → ∃ t es, call s msg = some t ∧ Effect w s cs es t ∧ Delivers w s cs es [msg])
    (after : List (Message T)) : ∀ (s : Server T) (cs : List ConnPtr), s.deqConnections = cs.map some → cs.Nodup →
      cs.length ≤ size → ∃ t es, after.foldlM call s = some t ∧ Effect w s cs es t ∧ Delivers w s cs es after := by
  induction after with
  | nil =>
    intro s cs hdeq _ _
    exact ⟨s, [], rfl, .refl hdeq, fun c _ => ⟨.refl _, fun _ => .refl _⟩⟩
  | cons m after ih =>
    intro s cs hdeq hnodup hsize
    obtain ⟨t, es, ht, heffect, hdelivers⟩ := hcall s m cs hdeq hnodup hsize
    obtain ⟨u, es', hu, heffect', hdelivers'⟩ := ih t _ heffect.deqConnections (hnodup.filter _)
      (Nat.le_trans (List.length_filter_le _ _) hsize)
    refine ⟨u, es ++ es', ?_, heffect.trans heffect', hdelivers.append heffect heffect' hdelivers'⟩
    rw [List.foldlM_cons, ht]
    exact hu

variable (w ignore msg) in
/-- What the first pass leaves, once the elements it reset are erased. -/
theorem effect_firstPass (hnodup : cs.Nodup) (s : Server T) :
    Effect w s cs (firstPass w ignore msg s.asked cs)
      { s with
        asked := s.asked + (firstPass w ignore msg s.asked cs).length
        log := s.log ++ firstPass w ignore msg s.asked cs
        deqConnections := (cs.filter (· ∉ gone (firstPass w ignore msg s.asked cs))).map some } where
  log := rfl
  asked := rfl
  answers := answers_firstPass
  nodup := gone_firstPass_sublist.nodup hnodup
  gone := gone_firstPass_sublist.subset
  deqConnections := rfl
  others := by
    intro c hc
    exact ((sentTo_firstPass _ _ _ _ _ hnodup).resolve_left fun h => hc (of_mem_firstPass h.1).1).2

/-- The farewells of the first pass are sent behind it, with those that come up then. -/
theorem farewells_delivered (he : Effect w s cs es t) (he' : Effect w t (cs.filter (· ∉ gone es)) es' u)
    (h : Delivers w t (cs.filter (· ∉ gone es)) es' (farewells w s.log es)) (hc : c ∈ cs) :
    (sentTo c es').Subperm (farewells w s.log (es ++ es')) ∧
      (StaysOpen w s.asked (es ++ es') c → (sentTo c es').Perm (farewells w s.log (es ++ es'))) := by
  rw [farewells_append, ← he.log]
  by_cases hgone : c ∈ gone es
  · have hleft : c ∉ cs.filter (· ∉ gone es) := fun hmem => of_decide_eq_true (List.mem_filter.mp hmem).2 hgone
    rw [he'.others c hleft]
    exact ⟨List.nil_subperm, fun hopen => absurd hgone (he.answers.not_mem_gone hopen.left)⟩
  · have hleft : c ∈ cs.filter (· ∉ gone es) := List.mem_filter.mpr ⟨hc, decide_eq_true hgone⟩
    exact ⟨(h c hleft).1, fun hopen => (h c hleft).2 (he.asked ▸ hopen.right)⟩

/-- A call that ignores nobody delivers its message and the farewells. -/
theorem delivers_call (hnodup : cs.Nodup) (he : Effect w s cs (firstPass w none msg s.asked cs) t)
    (he' : Effect w t (cs.filter (· ∉ gone (firstPass w none msg s.asked cs))) es u)
    (h : Delivers w t (cs.filter (· ∉ gone (firstPass w none msg s.asked cs))) es
      (farewells w s.log (firstPass w none msg s.asked cs))) :
    Delivers w s cs (firstPass w none msg s.asked cs ++ es) [msg] := by
  intro c hc
  obtain ⟨hsub, hperm⟩ := farewells_delivered he he' h hc
  rw [sentTo_append]
  rcases sentTo_firstPass w s.asked c none msg hnodup with ⟨_, hsent⟩ | ⟨hnot, hsent⟩
  · rw [hsent]
    exact ⟨(List.Subperm.refl [msg]).append hsub, fun hopen => (hperm hopen).append_left [msg]⟩
  · rw [hsent]
    exact ⟨hsub.trans (List.sublist_append_right _ _).subperm,
      fun hopen => absurd (mem_firstPass hc (Option.some_ne_none c).symm hopen.left) hnot⟩

variable (w n log ignore msg cs) in
/-- Every farewell of the first pass is that of a connection. -/
theorem length_farewells_firstPass :
    (farewells w log (firstPass w ignore msg n cs)).length = (gone (firstPass w ignore msg n cs)).length := by
  induction cs generalizing n log with
  | nil => rfl
  | cons c cs ih =>
    unfold firstPass
    split
    · exact ih _ _
    · cases w.isConnected n c with
      | true => exact ih _ _
      | false => exact congrArg (· + 1) (ih _ _)

/-- A call of `MessageAllClients` goes through its first pass and then sends what that collected. -/
theorem messageAllClientsWithin_effect (w : World T) (depth : Nat) :
    ∀ (s : Server T) (cs : List ConnPtr) (msg : Message T) (ignore : Option ConnPtr), s.deqConnections = cs.map some →
      cs.Nodup → cs.length < depth → ∃ t u es, messageAllClientsWithin w depth s msg ignore = some u ∧
        Effect w s cs (firstPass w ignore msg s.asked cs) t ∧
        Effect w t (cs.filter (· ∉ gone (firstPass w ignore msg s.asked cs))) es u ∧
        Delivers w t (cs.filter (· ∉ gone (firstPass w ignore msg s.asked cs))) es
          (farewells w s.log (firstPass w ignore msg s.asked cs)) := by
  induction depth with
  | zero => exact fun _ _ _ _ _ _ h => absurd h (Nat.not_lt_zero _)
  | succ depth ih =>
    intro s cs msg ignore hdeq hnodup hdepth
    obtain ⟨clients, heach, hfilter⟩ := messageEach_firstPass w ignore msg hnodup s
    have heffect := effect_firstPass w ignore msg hnodup s
    have hlength := (messageEach_spec w _ msg _ s heach).length_eq
    have hfarewells := length_farewells_firstPass w s.asked s.log ignore msg cs
    unfold messageAllClientsWithin
    rw [hdeq, heach]
    generalize hes : firstPass w ignore msg s.asked cs = es at *
    cases hafter : farewells w s.log es with
    | nil =>
      -- Nothing was reset, and nothing is erased.
      rw [hafter] at hfarewells
      have hnone : gone es = [] := List.length_eq_zero_iff.mp hfarewells.symm
      have hall : cs.filter (· ∉ gone es) = cs := List.filter_eq_self.mpr fun c _ => by simp [hnone]
      have hclients : clients = (cs.filter (· ∉ gone es)).map some := by
        rw [← hfilter, eq_comm]
        refine List.filter_eq_self.mpr (List.length_filter_eq_length_iff.mp ?_)
        rw [hfilter, hall, hlength]
      subst hclients
      exact ⟨_, _, [], rfl, heffect, .refl rfl, fun c _ => ⟨.refl _, fun _ => .refl _⟩⟩
    | cons m after =>
      obtain ⟨c, hc⟩ : ∃ c, c ∈ gone es := by
        refine List.exists_mem_of_length_pos ?_
        rw [← hfarewells, hafter]
        exact Nat.succ_pos _
      have hshorter : (cs.filter (· ∉ gone es)).length < cs.length :=
        List.length_filter_lt_length_iff_exists.mpr ⟨c, heffect.gone hc, by simpa using hc⟩
      obtain ⟨u, es', hu, heffect', hdelivers⟩ := foldlM_effect
        (fun s msg => messageAllClientsWithin w depth s msg none) (cs.filter (· ∉ gone es)).length
        (fun s msg cs hdeq hnodup hsize => by
          obtain ⟨t, u, es, hu, he, he', hd⟩ := ih s cs msg none hdeq hnodup (by omega)
          exact ⟨u, _, hu, he.trans he', delivers_call hnodup he he' hd⟩)
        (m :: after) _ _ heffect.deqConnections (hnodup.filter _) (Nat.le_refl _)
      refine ⟨_, u, es', ?_, heffect, heffect', hdelivers⟩
      simpa only [erase, hfilter, List.isEmpty_cons, Bool.not_false, if_true] using hu

end Server

end Netzwerk
