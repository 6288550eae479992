import BackupEngine.Lemmas.Frames
import BackupEngine.Lib.Transition

/-!
# The scene viewer frame by frame

A button counts the changes of the key while the pointer stays over it, and turns its actors over at every second one: the
changes alternate between presses and releases, since a frame compares the key with the last frame. The pointer leaving the
button starts the count anew. The wheel and the held key move the transform of `DragMover`, and an event of the wheel lives
until the next frame has served it.
-/

namespace SceenViewer

open Cpp Engine Events Transition

/-! ## Stays of the pointer -/

/-- What a frame says of a button: whether the pointer is over it, and whether the key has changed. -/
abbrev Glance := Bool × Bool

/-- The changes of the key so far in the stay of the pointer. -/
def current (gs : List Glance) : Nat := gs.foldl (fun n g => counted g.1 g.2 n) 0

/-- The clicks of a button: in each stay of the pointer half as many as the key changed, rounded down. -/
def klicks (gs : List Glance) : Nat := ((gs.splitOnP fun g => !g.1).map fun stay => stay.countP Prod.snd / 2).sum

/-- The clicks of a button counted frame by frame, after so many changes in the stay under way. -/
def tally : Nat → List Glance → Nat
  | _, [] => 0
  | n, g :: gs => (clicks g.1 g.2 n).toNat + tally (counted g.1 g.2 n) gs

theorem tally_concat (gs : List Glance) (g : Glance) (n : Nat) :
    tally n (gs ++ [g]) = tally n gs + (clicks g.1 g.2 (gs.foldl (fun n g => counted g.1 g.2 n) n)).toNat := by
  induction gs generalizing n with
  | nil => simp [tally]
  | cons g' gs ih =>
    rw [List.cons_append, tally, ih, tally, List.foldl_cons, Nat.add_assoc]

/-- The changes are counted through the first stay and then stay by stay. -/
theorem halves_eq (gs : List Glance) (n : Nat) {stay : List Glance} {stays : List (List Glance)}
    (h : (gs.splitOnP fun g => !g.1) = stay :: stays) :
    (n + stay.countP Prod.snd) / 2 + (stays.map fun stay => stay.countP Prod.snd / 2).sum = n / 2 + tally n gs := by
  induction gs generalizing n stay stays with
  | nil =>
    cases h
    simp [tally]
  | cons g gs ih =>
    obtain ⟨inside, changed⟩ := g
    obtain ⟨stay', stays', hrest⟩ : ∃ stay' stays', (gs.splitOnP fun g : Glance => !g.1) = stay' :: stays' :=
      List.exists_cons_of_ne_nil (List.splitOnP_ne_nil _ _)
    rw [List.splitOnP_cons_eq_if_modifyHead, hrest] at h
    cases inside with
    | false =>
      cases h
      have hzero := ih 0 hrest
      rw [Nat.zero_add, Nat.zero_div, Nat.zero_add] at hzero
      simp [tally, clicks, counted, ← hzero]
    | true =>
      cases h
      have hstep := ih (n + changed.toNat) hrest
      have hcount : ((true, changed) :: stay').countP Prod.snd = changed.toNat + stay'.countP Prod.snd := by
        cases changed <;> simp [Nat.add_comm]
      have hhalf : (n + changed.toNat) / 2 = n / 2 + (clicks true changed n).toNat := by
        rcases Nat.mod_two_eq_zero_or_one n with hn | hn <;> cases changed <;> simp [clicks, hn] <;> omega
      rw [hcount, ← Nat.add_assoc, hstep, hhalf, tally, Nat.add_assoc]
      rfl

theorem klicks_eq_tally (gs : List Glance) : klicks gs = tally 0 gs := by
  obtain ⟨stay, stays, hsplit⟩ : ∃ stay stays, (gs.splitOnP fun g : Glance => !g.1) = stay :: stays :=
    List.exists_cons_of_ne_nil (List.splitOnP_ne_nil _ _)
  have h := halves_eq gs 0 hsplit
  rw [Nat.zero_add, Nat.zero_div, Nat.zero_add] at h
  rw [← h, klicks, hsplit, List.map_cons, List.sum_cons]

/-- One more frame clicks where it makes the changes of its stay even. -/
theorem klicks_concat (gs : List Glance) (g : Glance) :
    klicks (gs ++ [g]) = klicks gs + (clicks g.1 g.2 (current gs)).toNat := by
  rw [klicks_eq_tally, klicks_eq_tally, tally_concat]
  rfl

/-- One more frame counts on. -/
theorem current_concat (gs : List Glance) (g : Glance) : current (gs ++ [g]) = counted g.1 g.2 (current gs) := by
  unfold current
  rw [List.foldl_append, List.foldl_cons, List.foldl_nil]

/-- What the frames say of a button. -/
def glances (inside : FrameInput → Bool) : Bool → List FrameEvent → List Glance
  | _, [] => []
  | held, .wndProc _ :: es => glances inside held es
  | held, .frame input :: es => (inside input, pressed input.lButton != held) :: glances inside (pressed input.lButton) es

/-! ## What is seen -/

variable {M : Type} (floats : Arithmetic M)

/-- What the frames make of the reports: whether the key was held in the last frame, where the pointer was, which events of
the wheel wait, where the transform of `DragMover` is, and which events have been handed to the listeners. -/
structure View where
  held : Bool
  mPoint : POINT
  position : XMFLOAT3
  waiting : List (Addr × UInt8) := []
  handed : List Addr := []

/-- The view after one more event; `e` is the event of the mouse. -/
def View.next (e : Addr) (v : View) : FrameEvent → View
  | .wndProc (.mouseWheel delta q) => { v with waiting := v.waiting ++ [(q, Frames.wheelDir delta)] }
  | .wndProc .other => v
  | .frame input =>
    let position := (v.waiting.map Prod.snd).foldl (scrolled floats) v.position
    { held := pressed input.lButton
      mPoint := input.cursor
      position :=
        if pressed input.lButton && v.held then dragged floats position v.mPoint input.cursor else position
      handed := v.handed ++ (v.waiting.map Prod.fst ++ [e]) }

/-- The viewer before a frame: the listeners and the components are connected, no button waits for a click, and the event of
the mouse is the only one. -/
structure Ready (s : Frames) (c r m t : Addr) (renderer : DrawableRenderer) (event : MouseButtonEvent)
    (position : XMFLOAT3) : Prop where
  attending : Attending s.toDispatcher c r m t
  rendering : s.world.renderers r = some renderer
  /-- The matrix of the camera is asked for where there are buttons. -/
  camera : renderer.buttons ≠ [] → s.world.Filming renderer.currentCamera
  nodup : renderer.buttons.Nodup
  pressable : ∀ b ∈ renderer.buttons, s.world.Pressable b
  counted : s.world.Counted renderer.buttons event.LButton fun _ => 0
  position : s.world.positions t = some position
  near : s.mPoint.Near
  event : s.world.mouse s.e = some (.button event)
  queue : s.onNextUpdate = []
  live : ∀ q, s.events q = if q = s.e then some { usable := true, destroy := false } else none

variable {floats} {s₀ s s' : Frames} {c r m t : Addr} {renderer : DrawableRenderer} {event : MouseButtonEvent}
  {position : XMFLOAT3} {es : List FrameEvent}

/-- What a run of events makes of the view. -/
def viewOf (floats : Arithmetic M) (s₀ : Frames) (held : Bool) (position : XMFLOAT3) (es : List FrameEvent) : View :=
  es.foldl (View.next floats s₀.e) { held, mPoint := s₀.mPoint, position }

/-- What the frames say of the button at an address. -/
def glancesOf (floats : Arithmetic M) (s₀ : Frames) (held : Bool) (es : List FrameEvent) (b : Addr) : List Glance :=
  glances (fun input => input.over floats s₀.world b) held es

/-- The viewer after some events, against the state it started in. -/
structure Follows (floats : Arithmetic M) (s₀ : Frames) (c r m t : Addr) (renderer : DrawableRenderer) (v : View)
    (gs : Addr → List Glance) (s : Frames) : Prop where
  e : s.e = s₀.e
  attending : Attending s.toDispatcher c r m t
  rendering : s.world.renderers r = some renderer
  camera : renderer.buttons ≠ [] → s.world.Filming renderer.currentCamera
  pressable : ∀ b ∈ renderer.buttons, s.world.Pressable b
  face : s.world.face = s₀.world.face
  counted : s.world.Counted renderer.buttons v.held fun b => current (gs b)
  toggled : ∃ as, Toggled s₀.world as s.world ∧
    ∀ a, as.count a = (renderer.buttons.map fun b => (s₀.world.payload b).count a * klicks (gs b)).sum
  position : s.world.positions t = some v.position
  near : v.mPoint.Near
  mPoint : s.mPoint = v.mPoint
  event : ∃ event, s.world.mouse s.e = some (.button event) ∧ event.LButton = v.held
  queue : s.onNextUpdate = v.waiting.map Prod.fst
  waits : ∀ w ∈ v.waiting, Waits s.toDispatcher w.1 w.2
  waiting : (v.waiting.map Prod.fst).Nodup
  live : s.events s.e = some { usable := true, destroy := false }
  others : ∀ q, q ≠ s.e → (s.events q).isSome → q ∈ v.waiting.map Prod.fst
  small : v.waiting.length + 1 < 2 ^ 31
  calls : s.calls = s₀.calls ++ v.handed.flatMap fun q => [(c, q), (m, q)]

/-- A message of the window. -/
theorem Follows.wndProc {v : View} {gs : Addr → List Glance} {message : WindowMessage}
    (h : Follows floats s₀ c r m t renderer v gs s) (hen : Frames.enabled s (.wndProc message)) :
    Follows floats s₀ c r m t renderer (v.next floats s₀.e (.wndProc message)) gs (s.wndProc message) := by
  cases message with
  | other => exact h
  | mouseWheel delta q =>
    obtain ⟨hfree, hroom⟩ := hen
    have hne : q ≠ s.e := by
      rintro rfl
      rw [h.live] at hfree
      cases hfree
    have hnew : q ∉ v.waiting.map Prod.fst := by
      intro hmem
      obtain ⟨w, hw, rfl⟩ := List.mem_map.mp hmem
      rw [(h.waits w hw).1] at hfree
      cases hfree
    have hlength : s.onNextUpdate.length = v.waiting.length := by rw [h.queue, List.length_map]
    exact {
      e := h.e
      attending := ⟨h.attending.listener, h.attending.checker, h.attending.mover⟩
      rendering := h.rendering
      camera := h.camera
      pressable := h.pressable
      face := h.face
      counted := h.counted
      toggled := by
        obtain ⟨as, htoggled, hcount⟩ := h.toggled
        exact ⟨as, ⟨htoggled.klickers, htoggled.alive, htoggled.kept, htoggled.shown⟩, hcount⟩
      position := h.position
      near := h.near
      mPoint := h.mPoint
      event := by
        obtain ⟨event, hevent, hheld⟩ := h.event
        exact ⟨event, (Function.update_of_ne hne.symm _ _).trans hevent, hheld⟩
      queue := by
        show s.onNextUpdate ++ [q] = (v.waiting ++ [(q, Frames.wheelDir delta)]).map Prod.fst
        rw [h.queue, List.map_append]
        rfl
      waits := by
        intro w hw
        rcases List.mem_append.mp hw with hw | hw
        · have hother : w.1 ≠ q := fun heq => hnew (heq ▸ List.mem_map_of_mem hw)
          exact ⟨(Function.update_of_ne hother _ _).trans (h.waits w hw).1,
            (Function.update_of_ne hother _ _).trans (h.waits w hw).2⟩
        · cases List.mem_singleton.mp hw
          exact ⟨Function.update_self _ _ _, Function.update_self _ _ _⟩
      waiting := by
        show ((v.waiting ++ [(q, Frames.wheelDir delta)]).map Prod.fst).Nodup
        rw [List.map_append]
        refine List.nodup_append.mpr ⟨h.waiting, List.nodup_singleton _, ?_⟩
        rintro a ha b hb rfl
        cases List.mem_singleton.mp hb
        exact hnew ha
      live := (Function.update_of_ne hne.symm _ _).trans h.live
      others := by
        intro q' hq' hsome
        show q' ∈ (v.waiting ++ [(q, Frames.wheelDir delta)]).map Prod.fst
        rw [List.map_append]
        by_cases heq : q' = q
        · exact List.mem_append_right _ (heq ▸ List.mem_singleton_self q)
        · refine List.mem_append_left _ (h.others q' hq' ?_)
          have hkept : (Frames.wndProc s (.mouseWheel delta q)).events q' = s.events q' := Function.update_of_ne heq _ _
          rwa [hkept] at hsome
      small := by
        show (v.waiting ++ [(q, Frames.wheelDir delta)]).length + 1 < 2 ^ 31
        rw [List.length_append, List.length_singleton]
        omega
      calls := h.calls }

/-- One more frame, for the clicks of all buttons on an actor. -/
theorem sum_clicks (bs : List Addr) (count : Addr → Nat) (gs : Addr → List Glance) (g : Addr → Glance) :
    (bs.map fun b => count b * klicks (gs b ++ [g b])).sum = (bs.map fun b => count b * klicks (gs b)).sum +
      (bs.map fun b => if clicks (g b).1 (g b).2 (current (gs b)) then count b else 0).sum := by
  induction bs with
  | nil => rfl
  | cons b bs ih =>
    have hone : count b * klicks (gs b ++ [g b]) =
        count b * klicks (gs b) + if clicks (g b).1 (g b).2 (current (gs b)) then count b else 0 := by
      rw [klicks_concat, Nat.mul_add]
      cases clicks (g b).1 (g b).2 (current (gs b)) <;> simp
    simp only [List.map_cons, List.sum_cons]
    omega

theorem count_clicked (s : Stage) (bs : List Addr) (inside : Addr → Bool) (changed : Bool) (n : Addr → Nat) (a : Addr) :
    (s.clicked bs inside changed n).count a =
      (bs.map fun b => if clicks (inside b) changed (n b) then (s.payload b).count a else 0).sum := by
  unfold Stage.clicked
  rw [List.count_flatMap]
  congr 2
  funext b
  dsimp only [Function.comp]
  split <;> rfl

/-! ## One frame -/

section

variable {v : View} {gs : Addr → List Glance} {input : FrameInput}

/-- The dispatcher of a frame when `update` is called: the event of the mouse is at the end of the queue. -/
def Frames.queued (s : Frames) (event : MouseButtonEvent) (input : FrameInput) : Dispatcher Stage :=
  Dispatcher.addUpdateTrigger { s.toDispatcher with
    world := { s.world with
      mouse := Function.update s.world.mouse s.e (some (.button (Frames.refreshed event s.mPoint input))) } } s.e

/-- The dispatcher when the wheel has been served. -/
def Frames.wheeled (floats : Arithmetic M) (s : Frames) (event : MouseButtonEvent) (input : FrameInput) (c m t : Addr)
    (v : View) : Dispatcher Stage := afterWheel floats (s.queued event input) c m t v.position v.waiting

/-- The viewer after a frame whose buttons have left the stage `w`. -/
def Frames.framed (floats : Arithmetic M) (s : Frames) (event : MouseButtonEvent) (input : FrameInput) (c m t e : Addr)
    (v : View) (w : Stage) : Frames :=
  { s with
    toDispatcher := { s.wheeled floats event input c m t v with
      onNextUpdate := []
      world := w.put t (v.next floats e (.frame input)).position
      calls := (s.wheeled floats event input c m t v).calls ++ [(c, s.e), (m, s.e)] }
    mPoint := input.cursor }

/-- Where the buttons are depends on their transforms and the report only. -/
theorem Follows.over_eq (h : Follows floats s₀ c r m t renderer v gs s) {w : Stage} (hw : w.face = s.world.face) :
    input.over floats w = input.over floats s₀.world := by
  unfold FrameInput.over Stage.over
  rw [hw, h.face]

/-- The event of the mouse is none of those that wait. -/
theorem Follows.e_not_waiting (h : Follows floats s₀ c r m t renderer v gs s) : s.e ∉ v.waiting.map Prod.fst := by
  intro hmem
  obtain ⟨w, hw, heq⟩ := List.mem_map.mp hmem
  have hwait := (h.waits w hw).1
  rw [heq, h.live] at hwait
  cases hwait

theorem Follows.queue_queued (h : Follows floats s₀ c r m t renderer v gs s) (event : MouseButtonEvent) (input : FrameInput) :
    (s.queued event input).onNextUpdate = v.waiting.map Prod.fst ++ [s.e] := by
  show s.onNextUpdate ++ [s.e] = _
  rw [h.queue]

/-- The events of the wheel come first. -/
theorem Follows.wheel_rounds (h : Follows floats s₀ c r m t renderer v gs s) (event : MouseButtonEvent) (input : FrameInput) :
    Dispatcher.queueLoop (onEvent floats input) (v.waiting.length + 2) 0 (s.queued event input) =
      Dispatcher.queueLoop (onEvent floats input) 2 v.waiting.length (s.wheeled floats event input c m t v) := by
  have hattending : Attending (s.queued event input) c r m t :=
    ⟨h.attending.listener, h.attending.checker, h.attending.mover⟩
  have hwaits : ∀ w ∈ v.waiting, Waits (s.queued event input) w.1 w.2 := by
    intro w hw
    have hother : w.1 ≠ s.e := fun heq => h.e_not_waiting (heq ▸ List.mem_map_of_mem hw)
    exact ⟨(h.waits w hw).1, (Function.update_of_ne hother _ _).trans (h.waits w hw).2⟩
  have hrounds := SceenViewer.wheel_rounds floats input 2 [] hattending h.position
    (h.queue_queued event input) hwaits h.waiting (by simpa using Nat.lt_of_succ_lt h.small)
  rwa [List.length_nil, Nat.zero_add] at hrounds

/-- The event of the mouse comes last, and `update` returns. -/
theorem Follows.update (h : Follows floats s₀ c r m t renderer v gs s) (hnodup : renderer.buttons.Nodup)
    (hcursor : input.cursor.Near) (hheld : event.LButton = v.held) :
    ∃ w, (s.queued event input).update (onEvent floats input) ((s.queued event input).onNextUpdate.length + 1) =
        .ok (some (s.framed floats event input c m t s₀.e v w).toDispatcher) ∧
      Acted (s.wheeled floats event input c m t v).world ((s.wheeled floats event input c m t v).world.clicked renderer.buttons
        (input.over floats s₀.world) (pressed input.lButton != v.held) fun b => current (gs b)) w ∧
      w.face = s.world.face ∧
      w.Counted renderer.buttons (pressed input.lButton) fun b =>
        SceenViewer.counted (input.over floats s₀.world b) (pressed input.lButton != v.held) (current (gs b)) := by
  have hqueue := h.queue_queued event input
  have hentry : (s.wheeled floats event input c m t v).onNextUpdate[v.waiting.length]? = some s.e := by
    show (s.queued event input).onNextUpdate[v.waiting.length]? = some s.e
    rw [hqueue, List.getElem?_append_right (by simp), List.length_map, Nat.sub_self]
    rfl
  have hlive : (s.wheeled floats event input c m t v).events s.e = some { usable := true, destroy := false } :=
    (if_neg h.e_not_waiting).trans h.live
  obtain ⟨w, hround, hacted, hface, hcounted⟩ := mouse_round floats input 1 (d := s.wheeled floats event input c m t v)
    (Frames.refreshed event s.mPoint input)
    ⟨h.attending.listener, h.attending.checker, h.attending.mover⟩ h.rendering h.camera (Function.update_self _ _ _)
    h.pressable hnodup (n := fun b => current (gs b))
    (show s.world.Counted renderer.buttons event.LButton _ from hheld ▸ h.counted) (h.mPoint ▸ h.near) hcursor rfl rfl
    rfl rfl hentry hlive (Function.update_self _ _ _) h.small
  rw [h.over_eq (w := (s.wheeled floats event input c m t v).world) rfl] at hacted hcounted
  refine ⟨w, ?_, hheld ▸ hacted, hface, hheld ▸ hcounted⟩
  have hdone : (s.wheeled floats event input c m t v).onNextUpdate.length ≤ v.waiting.length + 1 := by
    show (s.queued event input).onNextUpdate.length ≤ _
    rw [hqueue]
    simp
  have hlength : (s.queued event input).onNextUpdate.length + 1 = v.waiting.length + 2 := by
    rw [hqueue]
    simp
  rw [Dispatcher.update, hlength, h.wheel_rounds, hround, queueLoop_end (by exact hdone), ok_bind]
  unfold Frames.framed View.next
  rw [h.mPoint, ← hheld]
  rfl

/-- What the state after the frame keeps. -/
theorem Follows.framed (h : Follows floats s₀ c r m t renderer v gs s) (hcursor : input.cursor.Near) {w : Stage}
    (hacted : Acted (s.wheeled floats event input c m t v).world
      ((s.wheeled floats event input c m t v).world.clicked renderer.buttons (input.over floats s₀.world)
        (pressed input.lButton != v.held) fun b => current (gs b)) w)
    (hface : w.face = s.world.face)
    (hcounted : w.Counted renderer.buttons (pressed input.lButton) fun b =>
      SceenViewer.counted (input.over floats s₀.world b) (pressed input.lButton != v.held) (current (gs b))) :
    Follows floats s₀ c r m t renderer (v.next floats s₀.e (.frame input))
      (fun b => gs b ++ [(input.over floats s₀.world b, pressed input.lButton != v.held)])
      (s.framed floats event input c m t s₀.e v w) where
  e := h.e
  attending := ⟨h.attending.listener, hacted.listeners ▸ h.attending.checker, hacted.listeners ▸ h.attending.mover⟩
  rendering := hacted.renderers ▸ h.rendering
  camera := fun hbuttons => hacted.filming (h.camera hbuttons)
  pressable := fun b hb => hacted.pressable hface (h.pressable b hb)
  face := hface.trans h.face
  counted := by
    intro b hb button hbutton
    show Counts button (pressed input.lButton) (current (gs b ++ [(_, pressed input.lButton != v.held)]))
    rw [current_concat]
    exact hcounted b hb button hbutton
  toggled := by
    obtain ⟨as, htoggled, hcount⟩ := h.toggled
    refine ⟨_, htoggled.trans ⟨hacted.klickers, hacted.alive, hacted.kept, hacted.shown⟩, fun a => ?_⟩
    have hpayload : (s.wheeled floats event input c m t v).world.payload = s₀.world.payload := by
      unfold Stage.payload
      rw [show (s.wheeled floats event input c m t v).world.face = s.world.face from rfl, h.face]
    rw [List.count_append, hcount, count_clicked, hpayload,
      sum_clicks renderer.buttons (fun b => (s₀.world.payload b).count a) gs
        fun b => (input.over floats s₀.world b, pressed input.lButton != v.held)]
  position := Function.update_self _ _ _
  near := hcursor
  mPoint := rfl
  event := ⟨Frames.refreshed event s.mPoint input, (congrFun hacted.mouse s.e).trans (Function.update_self _ _ _), rfl⟩
  queue := rfl
  waits := fun w hw => absurd hw List.not_mem_nil
  waiting := List.nodup_nil
  live := (if_neg h.e_not_waiting).trans h.live
  others := by
    intro q hq hsome
    have hgone : (s.framed floats event input c m t s₀.e v w).events q =
        if q ∈ v.waiting.map Prod.fst then none else s.events q := rfl
    rw [hgone] at hsome
    split at hsome
    · cases hsome
    · rename_i hnew
      exact absurd (h.others q hq hsome) hnew
  small := by
    show 0 + 1 < 2 ^ 31
    norm_num
  calls := by
    show s.calls ++ (v.waiting.flatMap fun w => [(c, w.1), (m, w.1)]) ++ [(c, s.e), (m, s.e)] =
      s₀.calls ++ (v.handed ++ (v.waiting.map Prod.fst ++ [s₀.e])).flatMap fun q => [(c, q), (m, q)]
    rw [h.calls, h.e]
    simp [List.flatMap_append, List.flatMap_map]

/-- A frame. -/
theorem Follows.frame (h : Follows floats s₀ c r m t renderer v gs s) (hnodup : renderer.buttons.Nodup)
    (hcursor : input.cursor.Near) :
    ∃ s', s.frame floats input = .ok s' ∧ Follows floats s₀ c r m t renderer (v.next floats s₀.e (.frame input))
      (fun b => gs b ++ [(input.over floats s₀.world b, pressed input.lButton != v.held)]) s' := by
  obtain ⟨event, hevent, hheld⟩ := h.event
  obtain ⟨w, hupdate, hacted, hface, hcounted⟩ := h.update hnodup hcursor hheld
  refine ⟨s.framed floats event input c m t s₀.e v w, ?_, h.framed hcursor hacted hface hcounted⟩
  have hderef : s.deref s.e = .ok { usable := true, destroy := false } := by
    unfold Dispatcher.deref
    rw [h.live]
  unfold Frames.frame
  rw [hderef, ok_bind, hevent]
  show ((s.queued event input).update (onEvent floats input) ((s.queued event input).onNextUpdate.length + 1) >>= _) = _
  rw [hupdate]
  rfl

end

theorem glances_wndProc (inside : FrameInput → Bool) (held : Bool) (es : List FrameEvent) (message : WindowMessage) :
    glances inside held (es ++ [.wndProc message]) = glances inside held es := by
  induction es generalizing held with
  | nil => rfl
  | cons e es ih =>
    cases e with
    | wndProc message' => exact ih held
    | frame input =>
      rw [List.cons_append, glances, glances, ih]

/-- The frame compares the key with the last frame. -/
theorem glances_frame (inside : FrameInput → Bool) (e : Addr) (v : View) (es : List FrameEvent) (input : FrameInput) :
    glances inside v.held (es ++ [.frame input]) = glances inside v.held es ++
      [(inside input, pressed input.lButton != (es.foldl (View.next floats e) v).held)] := by
  induction es generalizing v with
  | nil => rfl
  | cons e' es ih =>
    cases e' with
    | wndProc message =>
      have hheld : (View.next floats e v (.wndProc message)).held = v.held := by cases message <;> rfl
      rw [List.cons_append, glances, glances, List.foldl_cons, ← hheld]
      exact ih _
    | frame input' => exact congrArg _ (ih (View.next floats e v (.frame input')))

/-! ## Runs -/

/-- What the steps keep, for the view and the glances of the events so far. -/
abbrev FollowsEvents (floats : Arithmetic M) (s₀ : Frames) (c r m t : Addr) (renderer : DrawableRenderer) (held : Bool)
    (position : XMFLOAT3) (es : List FrameEvent) (s : Frames) : Prop :=
  Follows floats s₀ c r m t renderer (viewOf floats s₀ held position es) (glancesOf floats s₀ held es) s

/-- Every event that can happen leaves a state, and the relation to the start holds again. -/
theorem Follows.step {held : Bool} {e : FrameEvent} (h : FollowsEvents floats s₀ c r m t renderer held position es s)
    (hnodup : renderer.buttons.Nodup) (hen : Frames.enabled s e) :
    ∃ s', Frames.next floats s e = .ok s' ∧
      FollowsEvents floats s₀ c r m t renderer held position (es ++ [e]) s' := by
  have hview : viewOf floats s₀ held position (es ++ [e]) = (viewOf floats s₀ held position es).next floats s₀.e e := by
    unfold viewOf
    rw [List.foldl_append, List.foldl_cons, List.foldl_nil]
  unfold FollowsEvents
  rw [hview]
  cases e with
  | wndProc message =>
    have hglances : glancesOf floats s₀ held (es ++ [.wndProc message]) = glancesOf floats s₀ held es :=
      funext fun b => glances_wndProc _ held es message
    rw [hglances]
    exact ⟨_, rfl, h.wndProc hen⟩
  | frame input =>
    obtain ⟨s', hs', hfollows⟩ := h.frame hnodup hen
    refine ⟨s', hs', ?_⟩
    have hglances : glancesOf floats s₀ held (es ++ [.frame input]) = fun b => glancesOf floats s₀ held es b ++
        [(input.over floats s₀.world b, pressed input.lButton != (viewOf floats s₀ held position es).held)] :=
      funext fun b => glances_frame (fun input => input.over floats s₀.world b) s₀.e
        { held, mPoint := s₀.mPoint, position } es input
    rw [hglances]
    exact hfollows

end SceenViewer
