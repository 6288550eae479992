import BackupEngine.Lemmas.Heap

/-!
# What a cell of the display looks like

A cell is three objects in the singleton: one that is placed, and below it a button and a text. While a cell is made, `Drawing`
says what its objects hold so far and that the rest of the scene is as it was; there is one lemma for each kind of statement.
-/

namespace SceenViewer

open Cpp Serializer Engine

namespace Scene

/-- What the objects of the singleton hold. -/
abbrev heap (s : Scene) (k : Int32) : Option (List (Addr × Data)) := s.storrageInstance.heap k

/-- What a pointer into the singleton leads to. -/
abbrev component (s : Scene) (p : Pointer) : Option Data := s.storrageInstance.component p

end Scene

section Links

variable {g : GameObject Data} {T : Class}

/-- So does the search for a component among those of its class. -/
theorem linkTo_returns (h : (g.findComponents T).length < 2 ^ 31) (a : Addr) : ∃ id, linkTo T g a = .ok id := by
  obtain ⟨i, hi⟩ := findPlace_returns h a
  rw [linkTo, hi, ok_bind]
  cases i with
  | none => exact ⟨_, rfl⟩
  | some i => exact ⟨_, rfl⟩

theorem addInstance_returns (h : (g.findComponents T).length < 2 ^ 31) (a : Addr) (c : InstancedTeilSprite) :
    ∃ c', c.addInstance T g a = .ok c' := by
  obtain ⟨id, hid⟩ := linkTo_returns h a
  rw [InstancedTeilSprite.addInstance, addLink, hid, ok_bind]
  cases id with
  | none => exact ⟨_, rfl⟩
  | some id => exact ⟨_, rfl⟩

theorem addActor_returns (h : (g.findComponents T).length < 2 ^ 31) (a : Addr) (b : Button) :
    ∃ b', b.addActor T g a = .ok b' := by
  obtain ⟨id, hid⟩ := linkTo_returns h a
  rw [Button.addActor, hid, ok_bind]
  cases id with
  | none => exact ⟨_, rfl⟩
  | some id => exact ⟨_, rfl⟩

/-- `addButton` returns, with one button more at most. -/
theorem addButton_returns {c : DrawableRenderer} (h : c.buttons.length < 2 ^ 31) (a : Addr) :
    ∃ c', c.addButton g a = .ok c' ∧ c'.buttons.length ≤ c.buttons.length + 1 := by
  obtain ⟨i, hi⟩ := findPlace_returns h a
  rw [DrawableRenderer.addButton, hi, ok_bind]
  cases i with
  | none => exact ⟨_, rfl, by simp⟩
  | some i => exact ⟨_, rfl, Nat.le_succ _⟩

end Links

namespace Displayer

/-- The singleton is in a state in which it can be drawn to: the ids agree, and there are the renderer of the cells and the
one of the buttons, which has not more buttons than there were objects. -/
structure Ready (d : Displayer) (s : Scene) : Prop where
  rects : 4 ≤ d.rects1.length
  screenHeight : 0 ≤ d.screenHeight ∧ d.screenHeight < 2 ^ 31
  hierarchy : s.storrageInstance.Hierarchy
  counter : s.storrageInstance.counter < 2 ^ 31
  renderer : ∃ c, s.component d.instanceRenderer = some (.engine (.instancedTeilSprite c))
  checker : ∃ c, s.component d.buttonChecker = some (.engine (.drawableRenderer c)) ∧
    (c.buttons.length : Int) ≤ s.storrageInstance.counter

/-- The id of an object that is made for a cell. -/
def tempID (s₀ : Scene) (i : Nat) : Int32 := Int32.ofInt (s₀.storrageInstance.counter + i)

/-- What was there in the scene `s₀` is as it was, but for the two renderers. -/
structure Keeps (d : Displayer) (s₀ s : Scene) (pressed : Nat) : Prop where
  old : ∀ p x, s₀.component p = some x → p ≠ d.instanceRenderer → p ≠ d.buttonChecker → s.component p = some x
  renderer : ∃ c, s.component d.instanceRenderer = some (.engine (.instancedTeilSprite c))
  checker : ∃ c, s.component d.buttonChecker = some (.engine (.drawableRenderer c)) ∧
    (c.buttons.length : Int) ≤ s₀.storrageInstance.counter + pressed

/-- A cell is being made: `temp` is what its objects hold. Since the scene `s₀` there have been `n` allocations and `pressed`
buttons. -/
structure Drawing (d : Displayer) (s₀ s : Scene) (temp : List (List (Addr × Data))) (n pressed : Nat) : Prop where
  start : d.Ready s₀
  room : s₀.storrageInstance.counter + temp.length < 2 ^ 31
  hierarchy : s.storrageInstance.Hierarchy
  counter : s.storrageInstance.counter = s₀.storrageInstance.counter + temp.length
  next : s.world.next = s₀.world.next + n
  objects : ∀ i l, temp[i]? = some l → s.heap (tempID s₀ i) = some l
  addrs : ∀ l ∈ temp, (l.map Prod.fst).Nodup ∧ ∀ c ∈ l, c.1 < s₀.world.next + n
  keeps : d.Keeps s₀ s pressed

/-- A statement after which every pointer into `s₀` leads where it led. -/
theorem Keeps.congr {d : Displayer} {s₀ s s' : Scene} {pressed : Nat} (h : d.Keeps s₀ s pressed) (hs₀ : d.Ready s₀)
    (hframe : ∀ {p x}, s₀.component p = some x → s'.component p = s.component p) : d.Keeps s₀ s' pressed where
  old := fun p x hp hne hne' => (hframe hp).trans (h.old p x hp hne hne')
  renderer := by
    obtain ⟨_, hc₀⟩ := hs₀.renderer
    obtain ⟨c, hc⟩ := h.renderer
    exact ⟨c, (hframe hc₀).trans hc⟩
  checker := by
    obtain ⟨_, hc₀, _⟩ := hs₀.checker
    obtain ⟨c, hc, hle⟩ := h.checker
    exact ⟨c, (hframe hc₀).trans hc, hle⟩

namespace Drawing

variable {d : Displayer} {s₀ s s' : Scene} {temp : List (List (Addr × Data))} {n pressed : Nat} {l : List (Addr × Data)}
  {i : Nat}

theorem start_of (h : d.Ready s) : Drawing d s s [] 0 0 where
  start := h
  room := by simpa using h.counter
  hierarchy := h.hierarchy
  counter := by simp
  next := rfl
  objects := nofun
  addrs := nofun
  keeps := ⟨fun _ _ hx _ _ => hx, h.renderer, by simpa using h.checker⟩

/-- The ids given out from `s₀` on. -/
theorem tempID_toInt (hs₀ : d.Ready s₀) (hi : s₀.storrageInstance.counter + i < 2 ^ 31) :
    (tempID s₀ i).toInt = s₀.storrageInstance.counter + i := by
  have h0 := hs₀.hierarchy.counter
  exact Int32.toInt_ofInt_of_le (by omega) hi

/-- They are different. -/
theorem tempID_ne (h : Drawing d s₀ s temp n pressed) {j : Nat} (hi : i < temp.length) (hj : j < temp.length) (hne : i ≠ j) :
    tempID s₀ i ≠ tempID s₀ j := by
  have hroom := h.room
  intro heq
  have := congrArg Int32.toInt heq
  rw [tempID_toInt h.start (by omega), tempID_toInt h.start (by omega)] at this
  omega

/-- No object of `s₀` has one of them. -/
theorem ne_tempID (hs₀ : d.Ready s₀) (hi : s₀.storrageInstance.counter + i < 2 ^ 31) {p : Pointer} {x : Data}
    (hp : s₀.component p = some x) : p.gameobject ≠ tempID s₀ i := by
  intro heq
  obtain ⟨_, hheap, _⟩ := Option.bind_eq_some_iff.mp hp
  obtain ⟨g, hg, _⟩ := Option.map_eq_some_iff.mp hheap
  have hlt := (hs₀.hierarchy.ids _ g hg).2
  rw [heq, tempID_toInt hs₀ hi] at hlt
  omega

/-- Where an object of the cell is changed, the rest of the scene stays. -/
theorem frame (h : Drawing d s₀ s temp n pressed) (hi : s₀.storrageInstance.counter + i < 2 ^ 31)
    {o : Option (List (Addr × Data))} (hheap : s'.storrageInstance.heap = Function.update s.storrageInstance.heap (tempID s₀ i) o)
    {p : Pointer} {x : Data} (hp : s₀.component p = some x) : s'.component p = s.component p :=
  ObjectStorrage.component_congr (by rw [hheap, Function.update_of_ne (ne_tempID h.start hi hp)])

/-- A statement that changes what one object of the cell holds. -/
theorem of_update (h : Drawing d s₀ s temp n pressed) {a : Nat} {l' : List (Addr × Data)} (hi : temp[i]? = some l)
    (hsame : ObjectStorrage.SameLinks s.storrageInstance s'.storrageInstance) (hnext : s'.world.next = s.world.next + a)
    (hheap : s'.storrageInstance.heap = Function.update s.storrageInstance.heap (tempID s₀ i) (some l'))
    (haddrs : (l'.map Prod.fst).Nodup ∧ ∀ c ∈ l', c.1 < s₀.world.next + (n + a)) :
    Drawing d s₀ s' (temp.set i l') (n + a) pressed := by
  have hlt := (List.getElem?_eq_some_iff.mp hi).1
  have hroom := h.room
  constructor
  case start => exact h.start
  case room => simpa using h.room
  case hierarchy => exact hsame.hierarchy h.hierarchy
  case counter => rw [hsame.counter, h.counter, List.length_set]
  case next => rw [hnext, h.next, Nat.add_assoc]
  case objects =>
    intro j o ho
    rw [List.getElem?_set] at ho
    rw [Scene.heap, hheap]
    by_cases hij : i = j
    · rw [if_pos hij, if_pos (by simpa using hlt)] at ho
      rw [← hij, Function.update_self, ho]
    · rw [if_neg hij] at ho
      have hj := (List.getElem?_eq_some_iff.mp ho).1
      rw [Function.update_of_ne (h.tempID_ne hj hlt (Ne.symm hij))]
      exact h.objects j o ho
  case addrs =>
    intro o ho
    rcases List.mem_or_eq_of_mem_set ho with ho | rfl
    · refine ⟨(h.addrs o ho).1, fun c hc => ?_⟩
      exact Nat.lt_of_lt_of_le ((h.addrs o ho).2 c hc) (Nat.add_le_add_left (Nat.le_add_right n a) _)
    · exact haddrs
  case keeps => exact h.keeps.congr h.start (h.frame (by omega) hheap)

/-- The address of a component is none of those of the components before it. -/
theorem before_ne (h : Drawing d s₀ s temp n pressed) {before after : List (Addr × Data)} {a : Addr} {x : Data}
    (hi : temp[i]? = some (before ++ (a, x) :: after)) : ∀ c ∈ before, c.1 ≠ a := by
  obtain ⟨hnodup, _⟩ := h.addrs _ (List.mem_of_getElem? hi)
  rw [List.map_append, List.map_cons] at hnodup
  intro c hc heq
  exact List.disjoint_of_nodup_append hnodup (List.mem_map_of_mem hc) (heq ▸ List.mem_cons_self)

/-- What an object of the cell holds is found through a pointer. -/
theorem component (h : Drawing d s₀ s temp n pressed) (before : List (Addr × Data)) {after : List (Addr × Data)} {a : Addr}
    {x : Data} (hi : temp[i]? = some (before ++ (a, x) :: after)) :
    s.component { gameobject := tempID s₀ i, addr := a } = some x :=
  ObjectStorrage.component_eq_some.mpr ⟨before, after, h.objects i _ hi, h.before_ne hi⟩

/-- What was made can be drawn to. -/
theorem ready (h : Drawing d s₀ s temp n pressed) (hpressed : pressed ≤ temp.length) : d.Ready s where
  rects := h.start.rects
  screenHeight := h.start.screenHeight
  hierarchy := h.hierarchy
  counter := h.counter ▸ h.room
  renderer := h.keeps.renderer
  checker := by
    obtain ⟨c, hc, hle⟩ := h.keeps.checker
    have hcounter := h.counter
    exact ⟨c, hc, by omega⟩

/-! ## Statements -/

/-- `temp[i] = storrageInstance->createGameObject()` -/
theorem createGameObject (h : Drawing d s₀ s temp n pressed) (hroom : s₀.storrageInstance.counter + temp.length + 1 < 2 ^ 31) :
    ∃ s', s.createGameObject = .ok (tempID s₀ temp.length, s') ∧ Drawing d s₀ s' (temp ++ [[]]) (n + 1) pressed := by
  have hcounter := h.counter
  obtain ⟨st', w', hcreate, hhierarchy, hfresh, hcounter', hnext, hheap⟩ :=
    ObjectStorrage.createGameObject_heap h.hierarchy (by omega) s.world
  rw [h.counter, ← tempID] at hcreate hfresh hheap
  refine ⟨⟨st', w'⟩, Cpp.bind_eq_ok.mpr ⟨_, hcreate, rfl⟩, ?_⟩
  constructor
  case start => exact h.start
  case room =>
    rw [List.length_append, List.length_singleton]
    push_cast
    omega
  case hierarchy => exact hhierarchy
  case counter =>
    rw [hcounter', h.counter, List.length_append, List.length_singleton]
    push_cast
    omega
  case next => rw [hnext, h.next, Nat.add_assoc]
  case objects =>
    intro j o ho
    rw [Scene.heap, hheap]
    by_cases hj : j < temp.length
    · rw [List.getElem?_append_left hj] at ho
      have hne : tempID s₀ j ≠ tempID s₀ temp.length := by
        intro heq
        have := congrArg Int32.toInt heq
        rw [tempID_toInt h.start (by omega), tempID_toInt h.start (by omega)] at this
        omega
      rw [Function.update_of_ne hne]
      exact h.objects j o ho
    · obtain ⟨hlt, ho⟩ := List.getElem?_eq_some_iff.mp ho
      have hj : j = temp.length := by simp at hlt; omega
      subst hj
      rw [Function.update_self, ← ho]
      simp
  case addrs =>
    intro o ho
    rcases List.mem_append.mp ho with ho | ho
    · exact ⟨(h.addrs o ho).1, fun c hc => Nat.lt_succ_of_lt ((h.addrs o ho).2 c hc)⟩
    · cases List.mem_singleton.mp ho
      exact ⟨List.nodup_nil, nofun⟩
  case keeps =>
    have hframe : ∀ {p : Pointer} {x : Data}, s₀.component p = some x → Scene.component ⟨st', w'⟩ p = s.component p :=
      fun hp => h.frame (by omega) hheap hp
    exact h.keeps.congr h.start hframe

/-- `temp[i]->addComponent<T>()`, of which the data is what the constructor made of the storage. -/
theorem addComponent (h : Drawing d s₀ s temp n pressed) (T : Class) (toSet : List Addr) {new : Storage → Data}
    (data : Storage → Data) (hi : temp[i]? = some l)
    (hlonly : (T.getIsLonly && !(l.filter fun c => T.isA c.2.classOf).isEmpty) = false)
    (hrequired : List.Forall₂ (fun name a => ((l.filter fun c => c.2.classOf.typeName == name).map Prod.fst).head? = some a)
      T.getRequirements toSet)
    (hnew : Data.registered T.typeName = some new) (hset : ∀ w, (new w).setRequirements toSet = .ok (data w)) :
    ∃ s' w, s.addComponent (tempID s₀ i) T = .ok ({ gameobject := tempID s₀ i, addr := s₀.world.next + n }, s') ∧
      Drawing d s₀ s' (temp.set i (l ++ [(s₀.world.next + n, data w)])) (n + 1) pressed := by
  obtain ⟨st', w', hadd, hlast, hsame, hnext, hheap⟩ :=
    ObjectStorrage.addComponent_heap (h.objects i l hi) hlonly hrequired hnew (hset (s.world.memory s.world.next))
  rw [h.next] at hlast hheap
  obtain ⟨hnodup, hlt⟩ := h.addrs l (List.mem_of_getElem? hi)
  refine ⟨⟨st', w'⟩, _, Cpp.bind_eq_ok.mpr ⟨_, hadd, Cpp.bind_eq_ok.mpr ⟨_, hlast, rfl⟩⟩,
    h.of_update hi hsame hnext hheap ⟨?_, fun c hc => ?_⟩⟩
  · rw [List.map_append, List.map_singleton, List.nodup_append_comm]
    refine List.nodup_cons.mpr ⟨fun hmem => ?_, hnodup⟩
    obtain ⟨c, hc, heq⟩ := List.mem_map.mp hmem
    exact absurd heq (Nat.ne_of_lt (hlt c hc))
  · rcases List.mem_append.mp hc with hc | hc
    · exact Nat.lt_succ_of_lt (hlt c hc)
    · cases List.mem_singleton.mp hc
      exact Nat.lt_succ_self _

/-- What is written through a pointer to a component of the cell. -/
theorem update (h : Drawing d s₀ s temp n pressed) {f : Data → Comp Data} (before after : List (Addr × Data)) {a : Addr}
    {x y : Data} (hi : temp[i]? = some (before ++ (a, x) :: after)) (hf : f x = .ok y) :
    ∃ s', s.update { gameobject := tempID s₀ i, addr := a } f = .ok s' ∧
      Drawing d s₀ s' (temp.set i (before ++ (a, y) :: after)) n pressed := by
  obtain ⟨hnodup, hlt⟩ := h.addrs _ (List.mem_of_getElem? hi)
  rw [List.map_append, List.map_cons] at hnodup
  obtain ⟨st', hupdate, hsame, hheap⟩ :=
    ObjectStorrage.update_heap (p := ⟨tempID s₀ i, a⟩) (h.objects i _ hi) (h.before_ne hi) hf
  refine ⟨⟨st', s.world⟩, Cpp.bind_eq_ok.mpr ⟨_, hupdate, rfl⟩, h.of_update (a := 0) hi hsame rfl hheap ⟨?_, fun c hc => ?_⟩⟩
  · rw [List.map_append, List.map_cons]
    exact hnodup
  · rcases List.mem_append.mp hc with hc | hc
    · exact hlt c (List.mem_append_left _ hc)
    · rcases List.mem_cons.mp hc with rfl | hc
      · exact hlt (a, x) (List.mem_append_right _ List.mem_cons_self)
      · exact hlt c (List.mem_append_right _ (List.mem_cons_of_mem _ hc))

/-- `temp[i]->setParrent(temp[j])` -/
theorem setParrent (h : Drawing d s₀ s temp n pressed) {j : Nat} {l' : List (Addr × Data)} (hi : temp[i]? = some l)
    (hj : temp[j]? = some l') :
    ∃ s', s.setParrent (tempID s₀ i) (tempID s₀ j) = .ok s' ∧ Drawing d s₀ s' temp n pressed := by
  obtain ⟨st', hset, hhierarchy, hcounter, hheap⟩ :=
    ObjectStorrage.setParrent_heap h.hierarchy (h.objects i l hi) (h.objects j l' hj)
  refine ⟨⟨st', s.world⟩, Cpp.bind_eq_ok.mpr ⟨_, hset, rfl⟩, ?_⟩
  exact {
    start := h.start
    room := h.room
    hierarchy := hhierarchy
    counter := hcounter.trans h.counter
    next := h.next
    objects := fun k o ho => (congrFun hheap _).trans (h.objects k o ho)
    addrs := h.addrs
    keeps := h.keeps.congr h.start fun {p _} _ => ObjectStorrage.component_congr (congrFun hheap _) }

/-- `temp[i]` read. -/
theorem deref (h : Drawing d s₀ s temp n pressed) (hi : temp[i]? = some l) :
    ∃ g, s.storrageInstance.deref (tempID s₀ i) = .ok g ∧ g.ID = tempID s₀ i ∧ g.holds = l := by
  obtain ⟨g, hg, hholds⟩ := Option.map_eq_some_iff.mp (h.objects i l hi)
  exact ⟨g, ObjectStorrage.deref_eq_ok.mpr hg, h.hierarchy.keyed _ g hg, hholds⟩

/-- A write to a component of `s₀`. -/
theorem of_keeps (h : Drawing d s₀ s temp n pressed) {p : Pointer} {x : Data} {m : Nat} {st' : ObjectStorrage Data}
    (hp : s₀.component p = some x) (hsame : ObjectStorrage.SameLinks s.storrageInstance st')
    (hheap : ∀ k, k ≠ p.gameobject → st'.heap k = s.storrageInstance.heap k) (hkeeps : d.Keeps s₀ ⟨st', s.world⟩ m) :
    Drawing d s₀ ⟨st', s.world⟩ temp n m where
  start := h.start
  room := h.room
  hierarchy := hsame.hierarchy h.hierarchy
  counter := hsame.counter.trans h.counter
  next := h.next
  objects := by
    intro i l hi
    have hlt := (List.getElem?_eq_some_iff.mp hi).1
    have hroom := h.room
    exact (hheap _ (Ne.symm (ne_tempID h.start (by omega) hp))).trans (h.objects i l hi)
  addrs := h.addrs
  keeps := hkeeps

/-- What is written to the renderer of the cells. -/
theorem onRenderer (h : Drawing d s₀ s temp n pressed) {f : InstancedTeilSprite → Comp InstancedTeilSprite}
    (hf : ∀ c, ∃ c', f c = .ok c') :
    ∃ s', s.updateEngine d.instanceRenderer (Engine.Data.onInstancedTeilSprite f) = .ok s' ∧
      Drawing d s₀ s' temp n pressed := by
  obtain ⟨c, hc⟩ := h.keeps.renderer
  obtain ⟨b, hb, hle⟩ := h.keeps.checker
  obtain ⟨_, hc₀⟩ := h.start.renderer
  obtain ⟨c', hc'⟩ := hf c
  have hon : Data.onEngine (Engine.Data.onInstancedTeilSprite f) (.engine (.instancedTeilSprite c)) =
      .ok (.engine (.instancedTeilSprite c')) := by
    simp [Data.onEngine, Engine.Data.onInstancedTeilSprite, hc']
  obtain ⟨st', hupdate, hsame, hself, hother, hheap⟩ := ObjectStorrage.update_component hc hon
  have hne : d.buttonChecker ≠ d.instanceRenderer := by
    intro heq
    rw [heq, hc] at hb
    cases hb
  exact ⟨⟨st', s.world⟩, Cpp.bind_eq_ok.mpr ⟨_, hupdate, rfl⟩, h.of_keeps hc₀ hsame hheap
    { old := fun p x hp hp1 hp2 => (hother p hp1).trans (h.keeps.old p x hp hp1 hp2)
      renderer := ⟨c', hself⟩
      checker := ⟨b, (hother _ hne).trans hb, hle⟩ }⟩

/-- What is written to the renderer of the buttons, where it adds one button at most. -/
theorem onChecker (h : Drawing d s₀ s temp n pressed) {f : DrawableRenderer → Comp DrawableRenderer}
    (hf : ∀ c, c.buttons.length < 2 ^ 31 → ∃ c', f c = .ok c' ∧ c'.buttons.length ≤ c.buttons.length + 1)
    (hpressed : pressed ≤ temp.length) :
    ∃ s', s.updateEngine d.buttonChecker (Engine.Data.onDrawableRenderer f) = .ok s' ∧
      Drawing d s₀ s' temp n (pressed + 1) := by
  obtain ⟨c, hc⟩ := h.keeps.renderer
  obtain ⟨b, hb, hle⟩ := h.keeps.checker
  obtain ⟨_, hb₀, _⟩ := h.start.checker
  have hroom := h.room
  obtain ⟨b', hb', hle'⟩ := hf b (by omega)
  have hon : Data.onEngine (Engine.Data.onDrawableRenderer f) (.engine (.drawableRenderer b)) =
      .ok (.engine (.drawableRenderer b')) := by
    simp [Data.onEngine, Engine.Data.onDrawableRenderer, hb']
  obtain ⟨st', hupdate, hsame, hself, hother, hheap⟩ := ObjectStorrage.update_component hb hon
  have hne : d.instanceRenderer ≠ d.buttonChecker := by
    intro heq
    rw [heq, hb] at hc
    cases hc
  exact ⟨⟨st', s.world⟩, Cpp.bind_eq_ok.mpr ⟨_, hupdate, rfl⟩, h.of_keeps hb₀ hsame hheap
    { old := fun p x hp hp1 hp2 => (hother p hp2).trans (h.keeps.old p x hp hp1 hp2)
      renderer := ⟨c, (hother _ hne).trans hc⟩
      checker := ⟨b', hself, by push_cast; omega⟩ }⟩

/-- What is written through a pointer to the transform of an object. -/
theorem onTransform (h : Drawing d s₀ s temp n pressed) (f : Transform → Transform) {after : List (Addr × Data)} {a : Addr}
    {t : Transform} (hi : temp[i]? = some ((a, .engine (.transform t)) :: after)) :
    ∃ s', s.onTransform { gameobject := tempID s₀ i, addr := a } f = .ok s' ∧
      Drawing d s₀ s' (temp.set i ((a, .engine (.transform (f t))) :: after)) n pressed :=
  h.update [] _ hi rfl

/-- A transform as its constructor leaves it. -/
def plain : Transform := Transform.new (World.blank.memory 0)

/-- `temp[i]` and `tempTransform[i]` -/
theorem newTemp (h : Drawing d s₀ s temp n pressed) (hroom : s₀.storrageInstance.counter + temp.length + 1 < 2 ^ 31) :
    ∃ s', Displayer.newTemp s = .ok (tempID s₀ temp.length,
        { gameobject := tempID s₀ temp.length, addr := s₀.world.next + (n + 1) }, s') ∧
      Drawing d s₀ s' (temp ++ [[(s₀.world.next + (n + 1), .engine (.transform plain))]]) (n + 2) pressed := by
  obtain ⟨s₁, hcreate, h₁⟩ := h.createGameObject hroom
  obtain ⟨s₂, w, hadd, h₂⟩ := h₁.addComponent (i := temp.length) (l := []) (.engine .transform) []
    (fun _ => .engine (.transform plain)) (by simp) rfl .nil rfl fun _ => rfl
  refine ⟨s₂, Cpp.bind_eq_ok.mpr ⟨_, hcreate, Cpp.bind_eq_ok.mpr ⟨_, hadd, rfl⟩⟩, ?_⟩
  simpa using h₂

/-- The components of an object of the cell are not more than can be counted. -/
theorem findComponents (h : Drawing d s₀ s temp n pressed) (hi : temp[i]? = some l) (hl : l.length < 2 ^ 31) :
    ∃ g, s.storrageInstance.deref (tempID s₀ i) = .ok g ∧ ∀ T : Class, (g.findComponents T).length < 2 ^ 31 := by
  obtain ⟨g, hg, _, rfl⟩ := h.deref hi
  refine ⟨g, hg, fun T => Nat.lt_of_le_of_lt ?_ hl⟩
  rw [g.findComponents_holds, List.length_map]
  exact List.length_filter_le _ _

/-- The button of a cell. -/
theorem addButtonOf {l0 l2 : List (Addr × Data)} {a : Addr} {t : Transform}
    (h : Drawing d s₀ s [l0, [(a, .engine (.transform t))], l2] n 0) :
    ∃ s' inst c b k, d.addButtonOf (tempID s₀ 1) { gameobject := tempID s₀ 1, addr := a } s = .ok s' ∧
      Drawing d s₀ s' [l0, [(a, .engine (.transform (t.setScale (floatOf 64) (floatOf 64) (floatOf 1)))), inst,
        (c, .engine (.button b)), k], l2] (n + 3) 1 := by
  have hrects := h.start.rects
  obtain ⟨rect2, hrect2⟩ : ∃ r, elemAt d.rects1 2 = .ok r :=
    ⟨_, elemAt_eq_ok.mpr (List.getElem?_eq_getElem (by omega))⟩
  obtain ⟨rect3, hrect3⟩ : ∃ r, elemAt d.rects1 3 = .ok r :=
    ⟨_, elemAt_eq_ok.mpr (List.getElem?_eq_getElem (by omega))⟩
  -- The instance, which the renderer takes.
  obtain ⟨s₁, w, hinstance, h₁⟩ := h.addComponent (i := 1) (.engine .instancedTeilSpriteInstance) [a]
    (fun w => .engine (.instancedTeilSpriteInstance { InstancedTeilSprite.Instance.new w with transform := some a }))
    rfl rfl (.cons rfl .nil) rfl fun _ => rfl
  obtain ⟨s₂, hrect, h₂⟩ := h₁.update (i := 1) [(a, .engine (.transform t))] []
    (f := Data.onEngine (Engine.Data.onInstancedTeilSpriteInstance fun c => .ok { c with rect := rect2 })) rfl rfl
  obtain ⟨s₃, hscale, h₃⟩ := h₂.onTransform (i := 1) (.setScale (floatOf 64) (floatOf 64) (floatOf 1)) rfl
  obtain ⟨g₃, hg₃, hfind₃⟩ := h₃.findComponents (i := 1) rfl (by simp)
  obtain ⟨s₄, hrenderer, h₄⟩ := h₃.onRenderer (addInstance_returns (hfind₃ (.engine .instancedTeilSpriteInstance))
    (s₀.world.next + n))
  -- The button, which the checker takes.
  obtain ⟨s₅, v, hbutton, h₅⟩ := h₄.addComponent (i := 1) (.engine .button) [a]
    (fun w => .engine (.button { Button.new w with transform := some a })) rfl rfl (.cons rfl .nil) rfl fun _ => rfl
  obtain ⟨g₅, hg₅, _⟩ := h₅.findComponents (i := 1) rfl (by simp)
  obtain ⟨s₆, hchecker, h₆⟩ := h₅.onChecker (fun c hc => addButton_returns (g := g₅) hc (s₀.world.next + (n + 1)))
    (Nat.zero_le _)
  -- The klicker, which is the actor of the button.
  obtain ⟨s₇, u, hklicker, h₇⟩ := h₆.addComponent (i := 1) .objectKlicker [s₀.world.next + n]
    (fun w => .objectKlicker { ObjectKlicker.new w with inst := some (s₀.world.next + n) }) rfl rfl
    (.cons rfl .nil) rfl fun _ => rfl
  obtain ⟨s₈, honklick, h₈⟩ := h₇.update (i := 1) (a := s₀.world.next + (n + 2)) [_, _, _] []
    (f := Data.onObjectKlicker fun c => .ok { c with onklick := (rect2, rect3) }) rfl rfl
  obtain ⟨g₈, hg₈, hfind₈⟩ := h₈.findComponents (i := 1) rfl (by simp)
  obtain ⟨b, hb⟩ := addActor_returns (hfind₈ (.engine .buttonActor)) (s₀.world.next + (n + 2))
    { Button.new v with transform := some a }
  obtain ⟨s₉, hactor, h₉⟩ := h₈.update (i := 1) (a := s₀.world.next + (n + 1)) (y := .engine (.button b)) [_, _] [_]
    (f := Data.onEngine (Engine.Data.onButton (Button.addActor (Class.engine .buttonActor) g₈ (s₀.world.next + (n + 2)))))
    rfl (by rw [Data.onEngine, Engine.Data.onButton, hb]; rfl)
  refine ⟨s₉, _, _, b, _, ?_, h₉⟩
  exact Cpp.bind_eq_ok.mpr ⟨_, hinstance, Cpp.bind_eq_ok.mpr ⟨_, hrect2, Cpp.bind_eq_ok.mpr ⟨_, hrect,
    Cpp.bind_eq_ok.mpr ⟨_, hscale, Cpp.bind_eq_ok.mpr ⟨_, hg₃, Cpp.bind_eq_ok.mpr ⟨_, hrenderer,
    Cpp.bind_eq_ok.mpr ⟨_, hbutton, Cpp.bind_eq_ok.mpr ⟨_, hg₅, Cpp.bind_eq_ok.mpr ⟨_, hchecker,
    Cpp.bind_eq_ok.mpr ⟨_, hklicker, Cpp.bind_eq_ok.mpr ⟨_, hrect3, Cpp.bind_eq_ok.mpr ⟨_, honklick,
    Cpp.bind_eq_ok.mpr ⟨_, hg₈, hactor⟩⟩⟩⟩⟩⟩⟩⟩⟩⟩⟩⟩⟩

/-- The text of a cell. -/
theorem addTextOf {st : ObjectStorrage Data} (hd : d.inspectedSceenStorrage = some st) {k : Int32} {g : GameObject Data}
    (hk : st.getById k = some g) (htext : InInt (g.ID.toInt + 48)) {l0 l1 : List (Addr × Data)} {a : Addr} {t : Transform}
    (h : Drawing d s₀ s [l0, l1, [(a, .engine (.transform t))]] n pressed) :
    ∃ s' c x, d.addTextOf k (tempID s₀ 2) { gameobject := tempID s₀ 2, addr := a } s = .ok s' ∧
      x.string = [UInt8.ofInt (g.ID.toInt + 48)] ∧
      Drawing d s₀ s' [l0, l1, [(a, .engine (.transform (t.setPosition (floatOf (-16)) (floatOf 16) (floatOf 0)))),
        (c, .engine (.stringRendererInstance x))]] (n + 1) pressed := by
  obtain ⟨s₁, w, htextInstance, h₁⟩ := h.addComponent (i := 2) (.engine .stringRendererInstance) [a]
    (fun w => .engine (.stringRendererInstance { StringRenderer.Instance.new w with transform := some a }))
    rfl rfl (.cons rfl .nil) rfl fun _ => rfl
  have hit : (d.inspected s₁).deref k = .ok g := by
    rw [inspected, hd]
    exact ObjectStorrage.deref_eq_ok.mpr hk
  obtain ⟨s₂, hstring, h₂⟩ := h₁.update (i := 2) [(a, .engine (.transform t))] []
    (f := Data.onEngine (Engine.Data.onStringRendererInstance fun c =>
      .ok { c with string := [UInt8.ofInt (g.ID.toInt + 48)] })) rfl rfl
  obtain ⟨s₃, hposition, h₃⟩ := h₂.onTransform (i := 2) (.setPosition (floatOf (-16)) (floatOf 16) (floatOf 0)) rfl
  refine ⟨s₃, _, { StringRenderer.Instance.new w with transform := some a, string := [UInt8.ofInt (g.ID.toInt + 48)] }, ?_,
    rfl, h₃⟩
  exact Cpp.bind_eq_ok.mpr ⟨_, htextInstance, Cpp.bind_eq_ok.mpr ⟨_, hit, Cpp.bind_eq_ok.mpr ⟨_, int_of_inInt htext,
    Cpp.bind_eq_ok.mpr ⟨_, hstring, hposition⟩⟩⟩⟩

end Drawing

/-! ## A cell -/

/-- A cell, row and column, can be computed with `int`. -/
structure Placeable (cell : Int32 × Int × Int) : Prop where
  nonneg : 0 ≤ cell.2.1
  row : InInt (80 * cell.2.1)
  col : InInt (cell.2.2 * 80)

theorem Placeable.inInt {cell : Int32 × Int × Int} (h : Placeable cell) : InInt cell.2.1 ∧ InInt cell.2.2 := by
  have hrow := h.row
  have hcol := h.col
  unfold InInt at *
  omega

/-- The three objects from `ID` on show a cell: the first is placed at its row and its column, and the transforms of the other
two, which are a button and the text of the id, hang on that of the first. -/
def Shown (d : Displayer) (s : Scene) (ID : Int) (cell : Int32 × Int × Int) : Prop :=
  ∃ place t₀ a₁ t₁ press b a₂ t₂ write x,
    s.component { gameobject := Int32.ofInt ID, addr := place } = some (.engine (.transform t₀)) ∧
    t₀.position = (floatOf (cell.2.2 * 80), floatOf (d.screenHeight - 80 * cell.2.1), floatOf 0) ∧ t₀.parrent = none ∧
    s.component { gameobject := Int32.ofInt (ID + 1), addr := a₁ } = some (.engine (.transform t₁)) ∧
    t₁.parrent = some place ∧
    s.component { gameobject := Int32.ofInt (ID + 1), addr := press } = some (.engine (.button b)) ∧
    s.component { gameobject := Int32.ofInt (ID + 2), addr := a₂ } = some (.engine (.transform t₂)) ∧
    t₂.parrent = some place ∧
    s.component { gameobject := Int32.ofInt (ID + 2), addr := write } = some (.engine (.stringRendererInstance x)) ∧
    x.string = [UInt8.ofInt (cell.1.toInt + 48)]

/-- Cells were drawn: there are three objects more for each of them, which show it, and nothing that was there is changed but
for the two renderers. -/
structure Draws (d : Displayer) (s s' : Scene) (cells : List (Int32 × Int × Int)) : Prop where
  counter : s'.storrageInstance.counter = s.storrageInstance.counter + 3 * cells.length
  shown : ∀ (i : Nat) cell, cells[i]? = some cell → d.Shown s' (s.storrageInstance.counter + 3 * i) cell
  old : ∀ p x, s.component p = some x → p ≠ d.instanceRenderer → p ≠ d.buttonChecker → s'.component p = some x

variable {d : Displayer} {s s' : Scene}

/-- A cell that can be placed is drawn. -/
theorem addCell_draws {st : ObjectStorrage Data} (hd : d.inspectedSceenStorrage = some st) {k : Int32} {g : GameObject Data}
    (hk : st.getById k = some g) (hID : g.ID = k) (htext : InInt (k.toInt + 48)) {row col : Int}
    (hcell : Placeable (k, row, col)) (hs : d.Ready s) (hroom : s.storrageInstance.counter + 3 < 2 ^ 31) :
    ∃ s', d.addCell row col k s = .ok s' ∧ d.Draws s s' [(k, row, col)] ∧ d.Ready s' := by
  obtain ⟨s₁, hnew0, h₁⟩ := (Drawing.start_of hs).newTemp (by simp; omega)
  obtain ⟨s₂, hnew1, h₂⟩ := h₁.newTemp (by simp; omega)
  obtain ⟨s₃, hnew2, h₃⟩ := h₂.newTemp (by simp; omega)
  obtain ⟨s₄, hset1, h₄⟩ := h₃.setParrent (i := 1) (j := 0) rfl rfl
  obtain ⟨s₅, hparrent1, h₅⟩ := h₄.onTransform (i := 1) (fun c => { c with parrent := some (s.world.next + 1) }) rfl
  obtain ⟨s₆, hset2, h₆⟩ := h₅.setParrent (i := 2) (j := 0) rfl rfl
  obtain ⟨s₇, hparrent2, h₇⟩ := h₆.onTransform (i := 2) (fun c => { c with parrent := some (s.world.next + 1) }) rfl
  have hy : InInt (d.screenHeight - 80 * row) := by
    obtain ⟨h0, hlt⟩ := hs.screenHeight
    have hnonneg := hcell.nonneg
    have hrow := hcell.row
    unfold InInt at *
    simp only at hrow hnonneg
    omega
  obtain ⟨s₈, hposition, h₈⟩ := h₇.onTransform (i := 0)
    (.setPosition (floatOf (col * 80)) (floatOf (d.screenHeight - 80 * row)) (floatOf 0)) rfl
  obtain ⟨s₉, hscale, h₉⟩ := h₈.onTransform (i := 0) (.setScale (floatOf 8) (floatOf 8) (floatOf 1)) rfl
  obtain ⟨s₁₀, inst, press, b, klicker, hbutton, h₁₀⟩ := Drawing.addButtonOf h₉
  obtain ⟨s₁₁, write, x, htextOf, hstring, h₁₁⟩ := Drawing.addTextOf hd hk (hID ▸ htext) h₁₀
  refine ⟨s₁₁, ?_, ?_, ?_⟩
  · exact Cpp.bind_eq_ok.mpr ⟨_, hnew0, Cpp.bind_eq_ok.mpr ⟨_, hnew1, Cpp.bind_eq_ok.mpr ⟨_, hnew2,
      Cpp.bind_eq_ok.mpr ⟨_, hset1, Cpp.bind_eq_ok.mpr ⟨_, hparrent1, Cpp.bind_eq_ok.mpr ⟨_, hset2,
      Cpp.bind_eq_ok.mpr ⟨_, hparrent2, Cpp.bind_eq_ok.mpr ⟨_, int_of_inInt hcell.col,
      Cpp.bind_eq_ok.mpr ⟨_, int_of_inInt hcell.row, Cpp.bind_eq_ok.mpr ⟨_, int_of_inInt hy,
      Cpp.bind_eq_ok.mpr ⟨_, hposition, Cpp.bind_eq_ok.mpr ⟨_, hscale, Cpp.bind_eq_ok.mpr ⟨_, hbutton,
      htextOf⟩⟩⟩⟩⟩⟩⟩⟩⟩⟩⟩⟩⟩
  · refine ⟨h₁₁.counter, fun i cell hi => ?_, h₁₁.keeps.old⟩
    obtain ⟨hlt, rfl⟩ := List.getElem?_eq_some_iff.mp hi
    obtain rfl : i = 0 := Nat.lt_one_iff.mp hlt
    have hID1 : Int32.ofInt (s.storrageInstance.counter + 3 * (0 : Nat) + 1) = tempID s 1 := by simp [tempID]
    have hID2 : Int32.ofInt (s.storrageInstance.counter + 3 * (0 : Nat) + 2) = tempID s 2 := by simp [tempID]
    rw [Shown, hID1, hID2]
    refine ⟨_, _, _, _, press, b, _, _, write, x, h₁₁.component (i := 0) [] rfl, rfl, rfl, h₁₁.component (i := 1) [] rfl, rfl,
      h₁₁.component (i := 1) [_, _] rfl, h₁₁.component (i := 2) [] rfl, rfl, h₁₁.component (i := 2) [_] rfl, ?_⟩
    rw [hstring, hID]
    rfl
  · exact h₁₁.ready (by simp)

/-! ## The ids that are left -/

/-- Each new object takes an id. -/
theorem newTemp_room (hs : s.storrageInstance.Hierarchy) {temp : Int32} {p : Pointer} (h : newTemp s = .ok (temp, p, s')) :
    s'.storrageInstance.Hierarchy ∧ s'.storrageInstance.counter = s.storrageInstance.counter + 1 ∧
      s'.storrageInstance.counter < 2 ^ 31 := by
  obtain ⟨⟨temp', s₁⟩, hnew, h⟩ := Cpp.bind_eq_ok.mp h
  obtain ⟨⟨p', s₂⟩, hadd, h⟩ := Cpp.bind_eq_ok.mp h
  cases h
  obtain ⟨⟨⟨ID, st⟩, w⟩, hcreate, h⟩ := Cpp.bind_eq_ok.mp hnew
  cases h
  have hsame := Scene.addComponent_same hadd
  obtain ⟨_, _, hcounter, _⟩ := ObjectStorrage.createGameObject_spec hs hcreate
  refine ⟨hsame.hierarchy (hs.createGameObject hcreate), by rw [hsame.counter, hcounter], ?_⟩
  -- The counter was raised with an `int`.
  obtain ⟨_, _, h⟩ := Cpp.bind_eq_ok.mp hcreate
  obtain ⟨next, hnext, h⟩ := Cpp.bind_eq_ok.mp h
  obtain ⟨hint, rfl⟩ := int_eq_ok.mp hnext
  cases h
  rw [hsame.counter]
  exact hint.2

/-- What there was room for when a cell was drawn. -/
theorem addCell_room (hs : s.storrageInstance.Hierarchy) {st : ObjectStorrage Data} (hd : d.inspectedSceenStorrage = some st)
    {k : Int32} {g : GameObject Data} (hk : st.getById k = some g) {row col : Int} (h : d.addCell row col k s = .ok s') :
    s.storrageInstance.counter + 3 < 2 ^ 31 ∧ InInt (col * 80) ∧ InInt (80 * row) ∧ InInt (g.ID.toInt + 48) := by
  obtain ⟨⟨temp0, tempTransform0, s₁⟩, h0, h⟩ := Cpp.bind_eq_ok.mp h
  obtain ⟨⟨temp1, tempTransform1, s₂⟩, h1, h⟩ := Cpp.bind_eq_ok.mp h
  obtain ⟨⟨temp2, tempTransform2, s₃⟩, h2, h⟩ := Cpp.bind_eq_ok.mp h
  obtain ⟨_, _, h⟩ := Cpp.bind_eq_ok.mp h
  obtain ⟨_, _, h⟩ := Cpp.bind_eq_ok.mp h
  obtain ⟨_, _, h⟩ := Cpp.bind_eq_ok.mp h
  obtain ⟨_, _, h⟩ := Cpp.bind_eq_ok.mp h
  obtain ⟨_, hcol, h⟩ := Cpp.bind_eq_ok.mp h
  obtain ⟨_, hrow, h⟩ := Cpp.bind_eq_ok.mp h
  obtain ⟨_, _, h⟩ := Cpp.bind_eq_ok.mp h
  obtain ⟨_, _, h⟩ := Cpp.bind_eq_ok.mp h
  obtain ⟨_, _, h⟩ := Cpp.bind_eq_ok.mp h
  obtain ⟨_, _, h⟩ := Cpp.bind_eq_ok.mp h
  -- The text.
  obtain ⟨⟨_, s₅⟩, _, h⟩ := Cpp.bind_eq_ok.mp h
  obtain ⟨it, hit, h⟩ := Cpp.bind_eq_ok.mp h
  obtain ⟨_, hcode, _⟩ := Cpp.bind_eq_ok.mp h
  rw [inspected, hd, Option.getD_some, ObjectStorrage.deref_eq_ok, hk] at hit
  cases hit
  obtain ⟨hs₁, hcounter₁, _⟩ := newTemp_room hs h0
  obtain ⟨hs₂, hcounter₂, _⟩ := newTemp_room hs₁ h1
  obtain ⟨_, hcounter₃, hlt⟩ := newTemp_room hs₂ h2
  exact ⟨by omega, (int_eq_ok.mp hcol).1, (int_eq_ok.mp hrow).1, (int_eq_ok.mp hcode).1⟩

/-! ## Cells in a row -/

/-- The cell, row and column, of an object is drawn. -/
def drawCell (d : Displayer) (s : Scene) (cell : Int32 × Int × Int) : Comp Scene := do
  let counter ← int cell.2.1
  let sidecount ← int cell.2.2
  d.addCell counter sidecount cell.1 s

/-- A cell stays shown where nothing but the renderers is changed. -/
theorem Shown.of_old {ID : Int} {cell : Int32 × Int × Int} (h : d.Shown s ID cell) (hs : d.Ready s)
    (hold : ∀ p x, s.component p = some x → p ≠ d.instanceRenderer → p ≠ d.buttonChecker → s'.component p = some x) :
    d.Shown s' ID cell := by
  obtain ⟨_, hrenderer⟩ := hs.renderer
  obtain ⟨_, hchecker, _⟩ := hs.checker
  have hkeep : ∀ {p : Pointer} {x : Engine.Data}, s.component p = some (.engine x) →
      (x.classOf ≠ .instancedTeilSprite ∧ x.classOf ≠ .drawableRenderer) → s'.component p = some (.engine x) := by
    rintro p x hp ⟨hne, hne'⟩
    refine hold p _ hp ?_ ?_
    · rintro rfl
      rw [hrenderer] at hp
      cases hp
      exact hne rfl
    · rintro rfl
      rw [hchecker] at hp
      cases hp
      exact hne' rfl
  obtain ⟨place, t₀, a₁, t₁, press, b, a₂, t₂, write, x, h0, hposition, hroot, h1, hup1, hb, h2, hup2, hx, hstring⟩ := h
  have hother : ∀ T : Engine.Class, T = .transform ∨ T = .button ∨ T = .stringRendererInstance →
      T ≠ .instancedTeilSprite ∧ T ≠ .drawableRenderer := by
    rintro _ (rfl | rfl | rfl) <;> decide
  exact ⟨place, t₀, a₁, t₁, press, b, a₂, t₂, write, x, hkeep h0 (hother _ (.inl rfl)), hposition, hroot,
    hkeep h1 (hother _ (.inl rfl)), hup1, hkeep hb (hother _ (.inr (.inl rfl))), hkeep h2 (hother _ (.inl rfl)), hup2,
    hkeep hx (hother _ (.inr (.inr rfl))), hstring⟩

theorem Draws.nil (d : Displayer) (s : Scene) : d.Draws s s [] where
  counter := by simp
  shown := nofun
  old := fun _ _ hx _ _ => hx

/-- A cell, and then the others. -/
theorem Draws.cons {s₁ : Scene} {cell : Int32 × Int × Int} {cells : List (Int32 × Int × Int)} (h : d.Draws s s₁ [cell])
    (hs₁ : d.Ready s₁) (hcells : d.Draws s₁ s' cells) : d.Draws s s' (cell :: cells) where
  counter := by
    rw [hcells.counter, h.counter, List.length_singleton, List.length_cons]
    push_cast
    omega
  shown := by
    rintro (_ | i) c hi
    · exact (h.shown 0 c hi).of_old hs₁ hcells.old
    · have hcounter : s.storrageInstance.counter + 3 * ((i + 1 : Nat) : Int) = s₁.storrageInstance.counter + 3 * i := by
        rw [h.counter, List.length_singleton]
        push_cast
        omega
      rw [hcounter]
      exact hcells.shown i c hi
  old := fun p x hp hne hne' => hcells.old p x (h.old p x hp hne hne') hne hne'

/-- What cells need to be drawn: they can be placed, there is a character for each id, and there are ids for their objects. -/
structure Fitting (s : Scene) (cells : List (Int32 × Int × Int)) : Prop where
  placeable : ∀ c ∈ cells, Placeable c
  text : ∀ c ∈ cells, InInt (c.1.toInt + 48)
  room : s.storrageInstance.counter + 3 * cells.length < 2 ^ 31

namespace Fitting

variable {s₁ : Scene} {c : Int32 × Int × Int} {cells : List (Int32 × Int × Int)}

theorem head (h : Fitting s (c :: cells)) : Fitting s [c] := by
  have hroom := h.room
  rw [List.length_cons] at hroom
  push_cast at hroom
  refine ⟨fun b hb => h.placeable b ?_, fun b hb => h.text b ?_, by simp; omega⟩
  · exact List.mem_singleton.mp hb ▸ List.mem_cons_self
  · exact List.mem_singleton.mp hb ▸ List.mem_cons_self

theorem tail (h : Fitting s (c :: cells)) (hcounter : s₁.storrageInstance.counter = s.storrageInstance.counter + 3) :
    Fitting s₁ cells := by
  have hroom := h.room
  rw [List.length_cons] at hroom
  push_cast at hroom
  exact ⟨fun b hb => h.placeable b (List.mem_cons_of_mem _ hb), fun b hb => h.text b (List.mem_cons_of_mem _ hb), by omega⟩

theorem cons (h : Fitting s [c]) (hcounter : s₁.storrageInstance.counter = s.storrageInstance.counter + 3)
    (hcells : Fitting s₁ cells) : Fitting s (c :: cells) where
  placeable := List.forall_mem_cons.mpr ⟨h.placeable c List.mem_cons_self, hcells.placeable⟩
  text := List.forall_mem_cons.mpr ⟨h.text c List.mem_cons_self, hcells.text⟩
  room := by
    have hroom := hcells.room
    rw [List.length_cons]
    push_cast
    omega

end Fitting

theorem drawCell_draws {st : ObjectStorrage Data} (hd : d.inspectedSceenStorrage = some st) (hkeyed : st.Keyed)
    {c : Int32 × Int × Int} {g : GameObject Data} (hk : st.getById c.1 = some g) (hs : d.Ready s) (hfit : Fitting s [c]) :
    ∃ s', d.drawCell s c = .ok s' ∧ d.Draws s s' [c] ∧ d.Ready s' := by
  have hc := hfit.placeable c List.mem_cons_self
  have hroom := hfit.room
  obtain ⟨k, row, col⟩ := c
  obtain ⟨hrow, hcol⟩ := hc.inInt
  rw [drawCell, int_of_inInt hrow, ok_bind, int_of_inInt hcol, ok_bind]
  exact addCell_draws hd hk (hkeyed k g hk) (hfit.text _ List.mem_cons_self) hc hs (by simpa using hroom)

/-- Cells that fit are drawn. -/
theorem drawCells_draws {st : ObjectStorrage Data} (hd : d.inspectedSceenStorrage = some st) (hkeyed : st.Keyed)
    {cells : List (Int32 × Int × Int)} (hstored : ∀ c ∈ cells, ∃ g, st.getById c.1 = some g) (hs : d.Ready s)
    (hfit : Fitting s cells) : ∃ s', cells.foldlM d.drawCell s = .ok s' ∧ d.Draws s s' cells := by
  induction cells generalizing s with
  | nil => exact ⟨s, rfl, .nil d s⟩
  | cons c cells ih =>
    obtain ⟨g, hk⟩ := hstored c List.mem_cons_self
    obtain ⟨s₁, hcell, hdraws, hs₁⟩ := drawCell_draws hd hkeyed hk hs hfit.head
    obtain ⟨s', hcells, hdraws'⟩ := ih (fun b hb => hstored b (List.mem_cons_of_mem _ hb)) hs₁ (hfit.tail hdraws.counter)
    refine ⟨s', ?_, hdraws.cons hs₁ hdraws'⟩
    rw [List.foldlM_cons, hcell, ok_bind, hcells]

/-- Cells that are drawn fit. -/
theorem fitting_of_drawCells {st : ObjectStorrage Data} (hd : d.inspectedSceenStorrage = some st) (hkeyed : st.Keyed)
    {cells : List (Int32 × Int × Int)} (hstored : ∀ c ∈ cells, ∃ g, st.getById c.1 = some g) (hnonneg : ∀ c ∈ cells, 0 ≤ c.2.1)
    (hs : d.Ready s) (h : cells.foldlM d.drawCell s = .ok s') : Fitting s cells := by
  induction cells generalizing s with
  | nil => exact ⟨nofun, nofun, by simpa using hs.counter⟩
  | cons c cells ih =>
    obtain ⟨s₁, hcell, h⟩ := Cpp.bind_eq_ok.mp h
    obtain ⟨g, hk⟩ := hstored c List.mem_cons_self
    have hc : Fitting s [c] := by
      obtain ⟨_, hrow, hcell⟩ := Cpp.bind_eq_ok.mp hcell
      obtain ⟨_, hcol, hcell⟩ := Cpp.bind_eq_ok.mp hcell
      obtain ⟨_, rfl⟩ := int_eq_ok.mp hrow
      obtain ⟨_, rfl⟩ := int_eq_ok.mp hcol
      obtain ⟨hroom, hcol, hrow, htext⟩ := addCell_room hs.hierarchy hd hk hcell
      rw [hkeyed _ g hk] at htext
      refine ⟨fun b hb => ?_, fun b hb => ?_, by simpa using hroom⟩
      · cases List.mem_singleton.mp hb
        exact ⟨hnonneg c List.mem_cons_self, hrow, hcol⟩
      · cases List.mem_singleton.mp hb
        exact htext
    obtain ⟨s₂, hcell', hdraws, hs₁⟩ := drawCell_draws hd hkeyed hk hs hc
    cases hcell.symm.trans hcell'
    exact hc.cons hdraws.counter (ih (fun b hb => hstored b (List.mem_cons_of_mem _ hb))
      (fun b hb => hnonneg b (List.mem_cons_of_mem _ hb)) hs₁ h)

end Displayer

end SceenViewer
