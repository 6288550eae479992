import BackupEngine.Application.Frames
import BackupEngine.Lemmas.Dispatch
import BackupEngine.Theorems.Klicks

/-!
# What a frame does

The actors, the buttons and the listeners of a frame, one after another: what each of them leaves, and that none of them
faults where every pointer on the way leads to an object.
-/

namespace SceenViewer

open Cpp Engine Events Transition

variable {s s' s'' : Stage} {as as' : List Addr} {a i : Addr}

@[simp] theorem pointee_some {α : Type} {objects : Addr → Option α} {p : Addr} {x : α} (h : objects p = some x) :
    pointee objects (some p) = .ok x := by
  unfold pointee
  rw [Option.bind_some, h]

theorem odd_add (m n : Nat) : decide ((m + n) % 2 = 1) = (decide (m % 2 = 1) ^^ decide (n % 2 = 1)) := by
  rcases Nat.mod_two_eq_zero_or_one m with hm | hm <;> rcases Nat.mod_two_eq_zero_or_one n with hn | hn <;>
    simp [Nat.add_mod, hm, hn]

/-! ## The actors -/

/-- An actor whose instance has a rectangle. -/
def Stage.Klickable (s : Stage) (a : Addr) : Prop :=
  ∃ k i, s.klickers a = some k ∧ k.inst = some i ∧ (s.rects i).isSome

/-- The rectangle an actor shows. -/
def ObjectKlicker.shown (k : ObjectKlicker) : XMFLOAT4 := if k.klick then k.onklick.2 else k.onklick.1

/-- The actor after so many calls of `klicked`. -/
def ObjectKlicker.toggled (k : ObjectKlicker) (n : Nat) : ObjectKlicker := { k with klick := k.klick ^^ n % 2 = 1 }

theorem ObjectKlicker.toggled_zero (k : ObjectKlicker) : k.toggled 0 = k := by simp [toggled]

theorem ObjectKlicker.toggled_add (k : ObjectKlicker) (m n : Nat) : (k.toggled m).toggled n = k.toggled (m + n) := by
  unfold toggled
  dsimp only
  rw [odd_add, Bool.xor_assoc]

/-- Only one actor has the instance. -/
def Stage.Owned (s : Stage) (a i : Addr) : Prop := ∀ a' k', s.klickers a' = some k' → k'.inst = some i → a' = a

/-- Between two stages `klicked` was called on some actors, in this order. -/
structure Toggled (s : Stage) (as : List Addr) (s' : Stage) : Prop where
  klickers : ∀ a, s'.klickers a = (s.klickers a).map fun k => k.toggled (as.count a)
  alive : ∀ i, (s.rects i).isSome → (s'.rects i).isSome
  kept : ∀ i, (∀ a ∈ as, ∀ k, s.klickers a = some k → k.inst ≠ some i) → s'.rects i = s.rects i
  shown : ∀ a ∈ as, ∀ k i, s'.klickers a = some k → k.inst = some i → s.Owned a i → s'.rects i = some k.shown

/-- The same, and nothing else but the flags of the buttons has changed. -/
structure Acted (s : Stage) (as : List Addr) (s' : Stage) : Prop extends Toggled s as s' where
  mouse : s'.mouse = s.mouse
  listeners : s'.listeners = s.listeners
  renderers : s'.renderers = s.renderers
  kameras : s'.kameras = s.kameras
  depth : s'.depth = s.depth
  parrents : s'.parrents = s.parrents
  positions : s'.positions = s.positions

theorem Toggled.none (h : s'.klickers = s.klickers) (hrects : s'.rects = s.rects) : Toggled s [] s' where
  klickers a := by
    rw [h]
    cases s.klickers a with
    | none => rfl
    | some k => exact congrArg some k.toggled_zero.symm
  alive i := by rw [hrects]; exact fun h => h
  kept i _ := by rw [hrects]
  shown a ha := absurd ha List.not_mem_nil

theorem Acted.refl (s : Stage) : Acted s [] s := ⟨.none rfl rfl, rfl, rfl, rfl, rfl, rfl, rfl, rfl⟩

/-- The instance of an actor stays. -/
theorem Toggled.inst_iff (h : Toggled s as s') :
    (∃ k, s'.klickers a = some k ∧ k.inst = some i) ↔ ∃ k, s.klickers a = some k ∧ k.inst = some i := by
  rw [h.klickers]
  cases s.klickers a with
  | none => simp
  | some k => simp [ObjectKlicker.toggled]

theorem Toggled.owned (h : Toggled s as s') (hown : s.Owned a i) : s'.Owned a i := by
  intro a' k' hk' hi
  obtain ⟨k, hk, hki⟩ := h.inst_iff.mp ⟨k', hk', hi⟩
  exact hown a' k hk hki

theorem Toggled.klickable (h : Toggled s as s') (hs : s.Klickable a) : s'.Klickable a := by
  obtain ⟨k, i, hk, hi, hrect⟩ := hs
  obtain ⟨k', hk', hi'⟩ := h.inst_iff.mpr ⟨k, hk, hi⟩
  exact ⟨k', i, hk', hi', h.alive i hrect⟩

theorem Toggled.trans (h : Toggled s as s') (h' : Toggled s' as' s'') : Toggled s (as ++ as') s'' where
  klickers a := by
    rw [h'.klickers, h.klickers, List.count_append]
    cases s.klickers a with
    | none => rfl
    | some k => exact congrArg some (k.toggled_add _ _)
  alive i hi := h'.alive i (h.alive i hi)
  kept i hall := by
    have hfirst : s'.rects i = s.rects i := h.kept i fun a ha => hall a (List.mem_append_left _ ha)
    rw [← hfirst]
    refine h'.kept i fun a ha k' hk' hi => ?_
    obtain ⟨k, hk, hki⟩ := h.inst_iff.mp ⟨k', hk', hi⟩
    exact hall a (List.mem_append_right _ ha) k hk hki
  shown a ha k i hk hi hown := by
    by_cases hlast : a ∈ as'
    · exact h'.shown a hlast k i hk hi (h.owned hown)
    · have hfirst : a ∈ as := (List.mem_append.mp ha).resolve_right hlast
      have hkept : s''.rects i = s'.rects i := by
        refine h'.kept i fun a' ha' k' hk' hi' => ?_
        cases h.owned hown a' k' hk' hi'
        exact hlast ha'
      rw [hkept]
      refine h.shown a hfirst k i ?_ hi hown
      rw [h'.klickers, List.count_eq_zero.mpr hlast] at hk
      cases hk' : s'.klickers a with
      | none =>
        rw [hk'] at hk
        cases hk
      | some k' =>
        rw [hk', Option.map_some, k'.toggled_zero] at hk
        exact hk

theorem Acted.trans (h : Acted s as s') (h' : Acted s' as' s'') : Acted s (as ++ as') s'' :=
  ⟨h.toToggled.trans h'.toToggled, h'.mouse.trans h.mouse, h'.listeners.trans h.listeners,
    h'.renderers.trans h.renderers, h'.kameras.trans h.kameras, h'.depth.trans h.depth, h'.parrents.trans h.parrents,
    h'.positions.trans h.positions⟩

/-- `klicked` turns the actor over and shows its other rectangle. -/
theorem klicked_spec (h : s.Klickable a) : ∃ s', s.klicked a = .ok s' ∧ Acted s [a] s' ∧ s'.buttons = s.buttons := by
  obtain ⟨k, i, hk, hi, hrect⟩ := h
  obtain ⟨rect, hrect⟩ := Option.isSome_iff_exists.mp hrect
  have hstep : s.klicked a = .ok { s with
      klickers := Function.update s.klickers a (some (k.toggled 1))
      rects := Function.update s.rects i (some (k.toggled 1).shown) } := by
    have htoggled : k.toggled 1 = { k with klick := !k.klick } := by simp [ObjectKlicker.toggled]
    rw [Stage.klicked, pointee_some hk, ok_bind, htoggled, hi]
    dsimp only
    rw [pointee_some hrect]
    rfl
  refine ⟨_, hstep, ⟨⟨fun a' => ?_, fun i' hi' => ?_, fun i' hall => ?_, ?_⟩, rfl, rfl, rfl, rfl, rfl, rfl, rfl⟩, rfl⟩
  · dsimp only
    rw [Function.update_apply]
    split
    · rename_i heq
      subst heq
      rw [hk, List.count_singleton_self, Option.map_some]
    · rename_i hne
      rw [List.count_eq_zero.mpr (fun h => hne (List.mem_singleton.mp h))]
      cases s.klickers a' with
      | none => rfl
      | some k' => exact congrArg some k'.toggled_zero.symm
  · dsimp only
    rw [Function.update_apply]
    split
    · rfl
    · exact hi'
  · dsimp only
    refine Function.update_of_ne ?_ _ _
    rintro rfl
    exact hall a (List.mem_singleton_self a) k hk hi
  · intro a' ha' k' i' hk' hi' _
    cases List.mem_singleton.mp ha'
    dsimp only at hk' ⊢
    rw [Function.update_self] at hk'
    cases hk'
    cases hi.symm.trans hi'
    exact Function.update_self _ _ _

/-- The actors `klicked` is called on by a list of calls. -/
def klickedOf (calls : List (ActorCall × Addr)) : List Addr :=
  calls.filterMap fun c => if c.1 = .klicked then some c.2 else none

/-- Calls on actors that are there. -/
theorem acts_spec (calls : List (ActorCall × Addr)) (h : ∀ c ∈ calls, s.Klickable c.2) :
    ∃ s', calls.foldlM Stage.act s = .ok s' ∧ Acted s (klickedOf calls) s' ∧ s'.buttons = s.buttons := by
  induction calls generalizing s with
  | nil => exact ⟨s, rfl, .refl s, rfl⟩
  | cons c calls ih =>
    obtain ⟨hc, hcalls⟩ := List.forall_mem_cons.mp h
    have hact : ∃ s', s.act c = .ok s' ∧ Acted s (klickedOf [c]) s' ∧ s'.buttons = s.buttons := by
      obtain ⟨call, actor⟩ := c
      obtain ⟨k, _, hk, _⟩ := id hc
      cases call with
      | klicked => exact klicked_spec hc
      | akt | down | up => exact ⟨s, by simp only [Stage.act, pointee_some hk, ok_bind]; rfl, .refl s, rfl⟩
    obtain ⟨t, ht, htoggled, hbuttons⟩ := hact
    obtain ⟨u, hu, htoggled', hbuttons'⟩ := ih (s := t) fun c' hc' => htoggled.klickable (hcalls c' hc')
    refine ⟨u, by rw [List.foldlM_cons, ht, ok_bind, hu], ?_, hbuttons'.trans hbuttons⟩
    have hsplit : klickedOf (c :: calls) = klickedOf [c] ++ klickedOf calls := by
      unfold klickedOf
      rw [← List.filterMap_append, List.singleton_append]
    rw [hsplit]
    exact htoggled.trans htoggled'

/-! ## The cameras and the transforms -/

/-- A transform and those above it are there, and no more than this many. -/
inductive Rooted (parrents : Addr → Option (Option Addr)) : Nat → Addr → Prop
  | root {this : Addr} {n : Nat} (h : parrents this = some none) : Rooted parrents (n + 1) this
  | child {this parrent : Addr} {n : Nat} (h : parrents this = some (some parrent)) (hparrent : Rooted parrents n parrent) :
    Rooted parrents (n + 1) this

/-- A camera with a transform, as far as its matrix asks for them. -/
def Stage.Filming (s : Stage) (camera : Option Addr) : Prop :=
  ∃ k kamera transform, camera = some k ∧ s.kameras k = some kamera ∧ kamera.transform = some transform ∧
    Rooted s.parrents s.depth transform

theorem Rooted.getWorldMatrix {n : Nat} {this : Addr} (h : Rooted s.parrents n this) :
    s.getWorldMatrix n (some this) = .ok () := by
  induction h with
  | root h =>
    rw [Stage.getWorldMatrix, pointee_some h, ok_bind]
    rfl
  | child h _ ih =>
    rw [Stage.getWorldMatrix, pointee_some h, ok_bind]
    exact ih

theorem Stage.Filming.getProjectionMatrix {camera : Option Addr} (h : s.Filming camera) :
    s.getProjectionMatrix camera = .ok () := by
  obtain ⟨k, kamera, transform, rfl, hk, htransform, hrooted⟩ := h
  rw [Stage.getProjectionMatrix, pointee_some hk, ok_bind, htransform]
  exact hrooted.getWorldMatrix

/-- What the actors do leaves the cameras and the transforms alone. -/
theorem Acted.filming {camera : Option Addr} (h : Acted s as s') (hs : s.Filming camera) : s'.Filming camera := by
  unfold Stage.Filming
  rw [h.kameras, h.depth, h.parrents]
  exact hs

/-! ## The buttons -/

variable {M : Type} {floats : Arithmetic M} {this button : Button} {b : Addr} {call : KlickCall} {held held' : Bool} {n : Nat}

/-- `checkKlicked` writes the two flags, and calls its own actors only. -/
theorem checkKlicked_members {calls : List (ActorCall × Addr)}
    (h : this.checkKlicked floats.toFloats call = .ok (button, calls)) :
    button.transform = this.transform ∧ button.payload = this.payload ∧ ∀ c ∈ calls, c.2 ∈ this.payload := by
  have heach : ∀ call' c a, (c, a) ∈ this.each call' → a ∈ this.payload := by
    intro call' c a hc
    obtain ⟨actor, hactor, heq⟩ := List.mem_map.mp hc
    cases heq
    exact hactor
  unfold Button.checkKlicked at h
  obtain ⟨transform, _, h⟩ := bind_eq_ok.mp h
  split at h
  · split at h
    · split at h <;> cases h <;> refine ⟨rfl, rfl, ?_⟩ <;> rintro ⟨c, a⟩ hc <;> grind
    · split at h
      · split at h <;> cases h <;> refine ⟨rfl, rfl, ?_⟩ <;> rintro ⟨c, a⟩ hc <;> grind
      · cases h
        exact ⟨rfl, rfl, fun c hc => absurd hc List.not_mem_nil⟩
  · cases h
    exact ⟨rfl, rfl, fun c hc => absurd hc List.not_mem_nil⟩

/-- The flags of a button after so many changes of the key since the pointer came over it, the key being held or not: after an
odd number the last change is noted. -/
structure Counts (button : Button) (held : Bool) (n : Nat) : Prop where
  down : button.down = (held && n % 2 = 1)
  up : button.up = (!held && n % 2 = 1)

/-- The changes of the key in the stay of the pointer over a button, after one more frame. -/
def counted (inside changed : Bool) (n : Nat) : Nat := if inside then n + changed.toNat else 0

/-- A frame makes a click where it makes the number of changes even. -/
def clicks (inside changed : Bool) (n : Nat) : Bool := inside && changed && n % 2 = 1

/-- The call a frame makes of `checkKlicked`: it says whether the key went down, or up. -/
structure Tells (call : KlickCall) (held held' : Bool) : Prop where
  _down : call._down = (held' && !held)
  _up : call._up = (!held' && held)

/-- One call of `checkKlicked` counts on, and calls `klicked` at every second change. -/
theorem checkKlicked_counts (floats : Arithmetic M) {transform : Addr} (hthis : this.transform = some transform)
    (hcounts : Counts this held n) (hcall : Tells call held held') :
    ∃ button calls, this.checkKlicked floats.toFloats call = .ok (button, calls) ∧
      Counts button held'
        (counted (Button.inside floats.toFloats call.x call.y (call.screenPos transform)) (held' != held) n) ∧
      klickedOf calls = if clicks (Button.inside floats.toFloats call.x call.y (call.screenPos transform)) (held' != held) n
        then this.payload else [] := by
  have hnone : ∀ c, c ≠ .klicked → klickedOf (this.each c) = [] := fun c hc =>
    (Klicking.filterMap_each this c).trans (if_neg hc)
  have hall : klickedOf (this.each .klicked) = this.payload := (Klicking.filterMap_each this _).trans (if_pos rfl)
  have hnil : klickedOf [] = [] := rfl
  have happend : ∀ cs cs', klickedOf (cs ++ cs') = klickedOf cs ++ klickedOf cs' := fun _ _ => List.filterMap_append
  unfold Button.checkKlicked Button.transformAt
  rw [hthis, hcall._down, hcall._up, hcounts.up, hcounts.down]
  dsimp only [ok_bind]
  cases Button.inside floats.toFloats call.x call.y (call.screenPos transform) with
  | false => exact ⟨_, _, rfl, ⟨by simp [counted], by simp [counted]⟩, rfl⟩
  | true =>
    rcases Nat.mod_two_eq_zero_or_one n with hn | hn <;> cases held <;> cases held' <;>
      refine ⟨_, _, by simp [hn]; exact ⟨rfl, rfl⟩, ⟨?_, ?_⟩, ?_⟩ <;>
      simp [counted, clicks, hn, Nat.add_mod, hnil, happend, hnone, hall, hcounts.down, hcounts.up]

/-- What stays of a button: its transform and its actors. -/
def Stage.face (s : Stage) (b : Addr) : Option (Option Addr × List Addr) :=
  (s.buttons b).map fun button => (button.transform, button.payload)

/-- The actors of the button at an address. -/
def Stage.payload (s : Stage) (b : Addr) : List Addr := ((s.face b).map Prod.snd).getD []

/-- Whether a place is over the button at an address. -/
def Stage.over (floats : Arithmetic M) (x y : UInt16) (screenPos : Addr → XMFLOAT4) (s : Stage) (b : Addr) : Bool :=
  (((s.face b).bind Prod.fst).map fun transform => Button.inside floats.toFloats x y (screenPos transform)).getD false

/-- A button with its transform, and with actors that can be called. -/
def Stage.Pressable (s : Stage) (b : Addr) : Prop :=
  ∃ transform payload, s.face b = some (some transform, payload) ∧
    Rooted s.parrents s.depth transform ∧ ∀ a ∈ payload, s.Klickable a

/-- The flags of some buttons. -/
def Stage.Counted (s : Stage) (bs : List Addr) (held : Bool) (n : Addr → Nat) : Prop :=
  ∀ b ∈ bs, ∀ button, s.buttons b = some button → Counts button held (n b)

/-- The calls of `klicked` in a frame, button by button. -/
def Stage.clicked (s : Stage) (bs : List Addr) (inside : Addr → Bool) (changed : Bool) (n : Addr → Nat) : List Addr :=
  bs.flatMap fun b => if clicks (inside b) changed (n b) then s.payload b else []

theorem Acted.pressable (h : Acted s as s') (hface : s'.face = s.face) (hs : s.Pressable b) : s'.Pressable b := by
  obtain ⟨transform, payload, hb, hrooted, hpayload⟩ := hs
  refine ⟨transform, payload, hface ▸ hb, ?_, fun a ha => h.toToggled.klickable (hpayload a ha)⟩
  rwa [h.parrents, h.depth]

/-- `checkKlicked` of one button of the stage. -/
theorem button_spec (floats : Arithmetic M) {x y : UInt16} {screenPos : Addr → XMFLOAT4} (hs : s.Pressable b)
    (hcounts : ∀ button, s.buttons b = some button → Counts button held n)
    (hcall : Tells call held held') (hx : call.x = x) (hy : call.y = y) (hpos : call.screenPos = screenPos) :
    ∃ s', s.checkKlicked floats call b = .ok s' ∧
      Acted s (if clicks (s.over floats x y screenPos b) (held' != held) n then s.payload b else []) s' ∧
      s'.face = s.face ∧ (∀ b' ≠ b, s'.buttons b' = s.buttons b') ∧
      ∀ button, s'.buttons b = some button →
        Counts button held' (counted (s.over floats x y screenPos b) (held' != held) n) := by
  obtain ⟨transform, payload, hface, hrooted, hpayload⟩ := hs
  obtain ⟨this, hthis, hparts⟩ := Option.map_eq_some_iff.mp hface
  obtain ⟨htransform, hactors⟩ := Prod.mk.inj hparts
  have hover : s.over floats x y screenPos b = Button.inside floats.toFloats call.x call.y (call.screenPos transform) := by
    unfold Stage.over
    rw [hface, hx, hy, hpos]
    rfl
  have hown : s.payload b = this.payload := by
    unfold Stage.payload
    rw [hface, hactors]
    rfl
  obtain ⟨button, calls, hcheck, hcounts', hklicked⟩ :=
    checkKlicked_counts floats htransform (hcounts this hthis) hcall
  obtain ⟨htransform', hpayload', hcalls⟩ := checkKlicked_members hcheck
  obtain ⟨s', hs', htoggled, hbuttons⟩ := acts_spec calls
    (s := { s with buttons := Function.update s.buttons b (some button) }) fun c hc =>
      hpayload c.2 (hactors ▸ hcalls c hc)
  rw [hover, hown, ← hklicked]
  refine ⟨s', ?_, ?_, ?_, fun b' hb' => ?_, fun button' hbutton' => ?_⟩
  · rw [Stage.checkKlicked, pointee_some hthis, ok_bind, htransform, hrooted.getWorldMatrix, ok_bind, hcheck, ok_bind]
    exact hs'
  · have hflags : Acted s [] { s with buttons := Function.update s.buttons b (some button) } :=
      ⟨.none rfl rfl, rfl, rfl, rfl, rfl, rfl, rfl, rfl⟩
    exact hflags.trans htoggled
  · funext b'
    unfold Stage.face
    rw [hbuttons]
    dsimp only
    rw [Function.update_apply]
    split
    · rename_i heq
      rw [heq, hthis, Option.map_some, Option.map_some, htransform', hpayload']
    · rfl
  · rw [hbuttons]
    exact Function.update_of_ne hb' _ _
  · rw [hbuttons] at hbutton'
    dsimp only at hbutton'
    rw [Function.update_self] at hbutton'
    cases hbutton'
    exact hcounts'

/-- `checkKlicked` of some buttons of the stage, one after another. -/
theorem buttons_spec (floats : Arithmetic M) (call : KlickCall) {x y : UInt16} {screenPos : Addr → XMFLOAT4}
    {bs : List Addr} {n : Addr → Nat}
    (hs : ∀ b ∈ bs, s.Pressable b) (hnodup : bs.Nodup) (hcounts : s.Counted bs held n) (hcall : Tells call held held')
    (hx : call.x = x) (hy : call.y = y) (hpos : call.screenPos = screenPos) :
    ∃ s', bs.foldlM (fun s b => s.checkKlicked floats call b) s = .ok s' ∧
      Acted s (s.clicked bs (s.over floats x y screenPos) (held' != held) n) s' ∧ s'.face = s.face ∧
      (∀ b ∉ bs, s'.buttons b = s.buttons b) ∧
      s'.Counted bs held' (fun b => counted (s.over floats x y screenPos b) (held' != held) (n b)) := by
  induction bs generalizing s with
  | nil => exact ⟨s, rfl, .refl s, rfl, fun _ _ => rfl, fun b hb => absurd hb List.not_mem_nil⟩
  | cons b bs ih =>
    obtain ⟨hb, hbs⟩ := List.forall_mem_cons.mp hs
    obtain ⟨hnot, hnodup⟩ := List.nodup_cons.mp hnodup
    obtain ⟨t, ht, htoggled, hface, hothers, hcount⟩ := button_spec floats hb
      (hcounts b List.mem_cons_self) hcall hx hy hpos
    have hover : t.over floats x y screenPos = s.over floats x y screenPos := by
      unfold Stage.over
      rw [hface]
    have hpayload : t.payload = s.payload := by
      unfold Stage.payload
      rw [hface]
    have hcounts' : t.Counted bs held n := fun b' hb' button hbutton =>
      hcounts b' (List.mem_cons_of_mem _ hb') button (hothers b' (fun h => hnot (h ▸ hb')) ▸ hbutton)
    obtain ⟨u, hu, htoggled', hface', hothers', hcounted⟩ :=
      ih (fun b' hb' => htoggled.pressable hface (hbs b' hb')) hnodup hcounts'
    rw [hover] at htoggled' hcounted
    refine ⟨u, by rw [List.foldlM_cons, ht, ok_bind, hu], ?_, hface'.trans hface, fun b' hb' => ?_, ?_⟩
    · unfold Stage.clicked at htoggled' ⊢
      rw [hpayload] at htoggled'
      rw [List.flatMap_cons]
      exact htoggled.trans htoggled'
    · rw [hothers' b' (List.not_mem_of_not_mem_cons hb'), hothers b' (List.ne_of_not_mem_cons hb')]
    · refine List.forall_mem_cons.mpr ⟨fun button hbutton => ?_, hcounted⟩
      rw [hothers' b hnot] at hbutton
      exact hcount button hbutton

/-! ## The listeners -/

/-- The place `checkButtons` gives to the buttons. -/
def FrameInput.over (floats : Arithmetic M) (input : FrameInput) (s : Stage) (b : Addr) : Bool :=
  s.over floats input.checked.x.toUInt32.toUInt16 input.checked.y.toUInt32.toUInt16 input.screenPos b

/-- `ButtonChecker` tells the buttons of the renderer what became of the key. -/
theorem buttonChecker_spec (floats : Arithmetic M) (input : FrameInput) {r : Addr} {renderer : DrawableRenderer}
    {m : MouseButtonEvent} {n : Addr → Nat}
    (hr : s.renderers r = some renderer) (hcamera : renderer.buttons ≠ [] → s.Filming renderer.currentCamera)
    (hs : ∀ b ∈ renderer.buttons, s.Pressable b) (hnodup : renderer.buttons.Nodup)
    (hcounts : s.Counted renderer.buttons m.LButtonAlt n) :
    ∃ s', ButtonChecker.onEvent floats input ⟨some r⟩ (.button m) s = .ok (false, s') ∧
      Acted s (s.clicked renderer.buttons (input.over floats s) (m.LButton != m.LButtonAlt) n) s' ∧ s'.face = s.face ∧
      s'.Counted renderer.buttons m.LButton
        (fun b => counted (input.over floats s b) (m.LButton != m.LButtonAlt) (n b)) := by
  have hcheck : ∀ down up, down = (m.LButton && !m.LButtonAlt) → up = (!m.LButton && m.LButtonAlt) →
      ∃ s', s.checkButtons floats input (some r) down up = .ok s' ∧
        Acted s (s.clicked renderer.buttons (input.over floats s) (m.LButton != m.LButtonAlt) n) s' ∧ s'.face = s.face ∧
        s'.Counted renderer.buttons m.LButton
          (fun b => counted (input.over floats s b) (m.LButton != m.LButtonAlt) (n b)) := by
    intro down up hdown hup
    obtain ⟨s', hs', htoggled, hface, _, hcount⟩ := buttons_spec floats
      { x := input.checked.x.toUInt32.toUInt16, y := input.checked.y.toUInt32.toUInt16, screenPos := input.screenPos,
        _down := down, _up := up }
      hs hnodup hcounts (show Tells _ m.LButtonAlt m.LButton from ⟨hdown, hup⟩) rfl rfl rfl
    refine ⟨s', ?_, htoggled, hface, hcount⟩
    rw [Stage.checkButtons, pointee_some hr, ok_bind]
    split
    · rename_i hnil
      rw [List.length_eq_zero_iff.mp hnil] at hs'
      exact hs'
    · rename_i hbuttons
      rw [(hcamera fun hnil => hbuttons (List.length_eq_zero_iff.mpr hnil)).getProjectionMatrix, ok_bind]
      exact hs'
  unfold ButtonChecker.onEvent
  dsimp only
  cases hnow : m.LButton <;> cases hbefore : m.LButtonAlt <;> rw [hnow, hbefore] at hcheck
  · obtain ⟨s', hs', hrest⟩ := hcheck false false rfl rfl
    exact ⟨s', by simp [hs'], hrest⟩
  · obtain ⟨s', hs', hrest⟩ := hcheck false true rfl rfl
    exact ⟨s', by simp [hs'], hrest⟩
  · obtain ⟨s', hs', hrest⟩ := hcheck true false rfl rfl
    exact ⟨s', by simp [hs'], hrest⟩
  · obtain ⟨s', hs', hrest⟩ := hcheck false false rfl rfl
    exact ⟨s', by simp [hs'], hrest⟩

/-- Where a turn of the wheel moves a transform. -/
def scrolled (floats : Arithmetic M) (position : XMFLOAT3) (dir : UInt8) : XMFLOAT3 :=
  let position := Transform.addTo floats.toMatrices position (floats.ofInt 0, floats.ofInt 0, floats.ofInt (dir.toNat - 1))
  if floats.less position.2.2 (floats.ofInt 0) then
    Transform.addTo floats.toMatrices position (floats.ofInt 0, floats.ofInt 0, floats.neg position.2.2)
  else position

/-- Where a frame with the key held moves a transform, from the last place of the pointer to the new one. -/
def dragged (floats : Arithmetic M) (position : XMFLOAT3) (mPoint cursor : POINT) : XMFLOAT3 :=
  let depth := floats.add position.2.2 (floats.ofInt 1)
  Transform.addTo floats.toMatrices position
    (floats.mul (floats.mul (floats.ofInt (cursor.x.toInt - mPoint.x.toInt)) depth) (floats.ofInt 2),
      floats.mul (floats.mul (floats.ofInt (mPoint.y.toInt - cursor.y.toInt)) depth) (floats.ofInt 2), floats.ofInt 0)

theorem scroll_spec {t : Addr} {position : XMFLOAT3} {dir : UInt8} (h : s.positions t = some position) :
    DragMover.onEvent floats ⟨some t⟩ (.scroll dir) s = .ok (false,
      { s with positions := Function.update s.positions t (some (scrolled floats position dir)) }) := by
  unfold DragMover.onEvent Stage.addPosition scrolled
  simp only [pointee_some h, ok_bind, Option.getD_some, pure_eq_ok,
    pointee_some (Function.update_self t _ s.positions)]
  split
  · simp only [Function.update_idem]
  · rfl

/-- A place whose distance from another such place is an `int`. -/
def POINT.Near (p : POINT) : Prop := ∀ z ∈ [p.x, p.y], -2 ^ 30 ≤ z.toInt ∧ z.toInt < 2 ^ 30

theorem drag_spec {t : Addr} {position : XMFLOAT3} {m : MouseButtonEvent} {mPoint cursor : POINT}
    (h : s.positions t = some position) (hpoint : mPoint.Near) (hcursor : cursor.Near)
    (hx : m.mousePosX = cursor.x) (hy : m.mousePosY = cursor.y) (hx' : m.mousePosXAlt = mPoint.x)
    (hy' : m.mousePosYAlt = mPoint.y) :
    let moved := if m.LButton && m.LButtonAlt then dragged floats position mPoint cursor else position
    DragMover.onEvent floats ⟨some t⟩ (.button m) s =
      .ok (m.LButton && m.LButtonAlt, { s with positions := Function.update s.positions t (some moved) }) := by
  have hpx := hpoint mPoint.x List.mem_cons_self
  have hpy := hpoint mPoint.y (List.mem_cons_of_mem _ (List.mem_singleton_self _))
  have hcx := hcursor cursor.x List.mem_cons_self
  have hcy := hcursor cursor.y (List.mem_cons_of_mem _ (List.mem_singleton_self _))
  have hdx : int (cursor.x.toInt - mPoint.x.toInt) = .ok (cursor.x.toInt - mPoint.x.toInt) :=
    int_eq_ok.mpr ⟨⟨by omega, by omega⟩, rfl⟩
  have hdy : int (mPoint.y.toInt - cursor.y.toInt) = .ok (mPoint.y.toInt - cursor.y.toInt) :=
    int_eq_ok.mpr ⟨⟨by omega, by omega⟩, rfl⟩
  unfold DragMover.onEvent
  dsimp only
  rw [hx, hy, hx', hy']
  split
  · rename_i hheld
    rw [pointee_some h, ok_bind, hdx, ok_bind, hdy, ok_bind]
    unfold Stage.addPosition dragged
    rw [pointee_some h, ok_bind, hheld]
    rfl
  · rename_i hheld
    rw [Bool.not_eq_true] at hheld
    rw [hheld, ← h, Function.update_eq_self]
    rfl

/-! ## The queue -/

section

variable {d d' d'' : Dispatcher Stage} {input : FrameInput} {c m q t : Addr} {position : XMFLOAT3}

/-- A call of a listener that leaves a stage. -/
theorem call_eq {listener : Listener} {event : Event} {data : MouseEvent} {consumed : Bool} {l : Addr}
    (hq : d.events q = some event) (hdata : d.world.mouse q = some data) (hl : d.world.listeners l = some listener)
    (hanswer : (match listener with
      | .buttonChecker this => this.onEvent floats input data d.world
      | .dragMover this => this.onEvent floats data d.world) = .ok (consumed, s)) :
    d.call (onEvent floats input) l q = .ok (consumed, { d with world := s, calls := d.calls ++ [(l, q)] }) := by
  unfold Dispatcher.call onEvent
  simp only [pointee_some hq, pointee_some hdata, pointee_some hl, ok_bind]
  cases listener with
  | buttonChecker this =>
    dsimp only at hanswer ⊢
    rw [hanswer]
    rfl
  | dragMover this =>
    dsimp only at hanswer ⊢
    rw [hanswer]
    rfl

/-- A call that does not consume the event goes on to the next listener. -/
theorem instantLoop_pass {l : Addr} {ls : List Addr} {i : Nat} (h : d.call (onEvent floats input) l q = .ok (false, d'))
    (hi : i + 1 < 2 ^ 31) :
    Dispatcher.instantLoop (onEvent floats input) q (l :: ls) i d =
      Dispatcher.instantLoop (onEvent floats input) q ls (i + 1) d' := by
  have hint : int ((i : Int) + 1) = .ok ((i : Int) + 1) := int_eq_ok.mpr ⟨⟨by omega, by omega⟩, rfl⟩
  rw [Dispatcher.instantLoop, h, ok_bind]
  simp [andAlso, hint]

/-- The last listener may consume the event; it makes no difference. -/
theorem instantLoop_last {l : Addr} {i : Nat} {consumed : Bool} {event : Event}
    (h : d.call (onEvent floats input) l q = .ok (consumed, d')) (hq : d'.events q = some event) (hi : i + 1 < 2 ^ 31) :
    Dispatcher.instantLoop (onEvent floats input) q [l] i d = .ok d' := by
  have hint : int ((i : Int) + 1) = .ok ((i : Int) + 1) := int_eq_ok.mpr ⟨⟨by omega, by omega⟩, rfl⟩
  rw [Dispatcher.instantLoop, h, ok_bind]
  unfold andAlso Dispatcher.usable Dispatcher.deref
  dsimp only
  rw [hq]
  cases consumed <;> cases event.usable <;> simp [hint, Dispatcher.instantLoop]

/-- One round of `update`. -/
theorem queueLoop_round {fuel i : Nat} (hq : d.onNextUpdate[i]? = some q)
    (hserve : Dispatcher.instantLoop (onEvent floats input) q d.listener 0 d = .ok d') (hdiscard : d'.discard q = .ok d'')
    (hi : i + 1 < 2 ^ 31) :
    Dispatcher.queueLoop (onEvent floats input) (fuel + 1) i d =
      Dispatcher.queueLoop (onEvent floats input) fuel (i + 1) d'' := by
  have hint : int ((i : Int) + 1) = .ok ((i : Int) + 1) := int_eq_ok.mpr ⟨⟨by omega, by omega⟩, rfl⟩
  have hlength : i < d.onNextUpdate.length := (List.getElem?_eq_some_iff.mp hq).1
  have hq' : d'.onNextUpdate[i]? = some q := (Dispatcher.instantLoop_spec hserve).1.getElem? hq
  rw [Dispatcher.queueLoop, if_pos hlength, Dispatcher.listenerLoop_eq hq, hserve, ok_bind, elemAt_eq_ok.mpr hq', ok_bind,
    hdiscard, ok_bind, hint, ok_bind]

/-- Past the end of the queue. -/
theorem queueLoop_end {fuel i : Nat} (h : d.onNextUpdate.length ≤ i) :
    Dispatcher.queueLoop (onEvent floats input) (fuel + 1) i d = .ok (some d) := by
  rw [Dispatcher.queueLoop, if_neg (Nat.not_lt.mpr h)]
  rfl

/-- An event of the wheel that waits in the queue. -/
def Waits (d : Dispatcher Stage) (q : Addr) (dir : UInt8) : Prop :=
  d.events q = some { usable := false, destroy := true } ∧ d.world.mouse q = some (.scroll dir)

/-- The listeners of the program, in the order in which they were added. -/
structure Attending (d : Dispatcher Stage) (c r m t : Addr) : Prop where
  listener : d.listener = [c, m]
  checker : d.world.listeners c = some (.buttonChecker ⟨some r⟩)
  mover : d.world.listeners m = some (.dragMover ⟨some t⟩)

/-- The transform of `DragMover` is put to a place. -/
def Stage.put (s : Stage) (t : Addr) (position : XMFLOAT3) : Stage :=
  { s with positions := Function.update s.positions t (some position) }

/-- The dispatcher after it has served events of the wheel. -/
def afterWheel (floats : Arithmetic M) (d : Dispatcher Stage) (c m t : Addr) (position : XMFLOAT3)
    (waiting : List (Addr × UInt8)) : Dispatcher Stage :=
  { d with
    events := fun q => if q ∈ waiting.map Prod.fst then none else d.events q
    world := d.world.put t ((waiting.map Prod.snd).foldl (scrolled floats) position)
    calls := d.calls ++ waiting.flatMap fun w => [(c, w.1), (m, w.1)] }

/-- An event of the wheel is handed to both listeners and deleted. -/
theorem wheel_round {fuel i : Nat} {r : Addr} {dir : UInt8} (hd : Attending d c r m t)
    (hpos : d.world.positions t = some position) (hq : d.onNextUpdate[i]? = some q) (hwait : Waits d q dir)
    (hi : i + 1 < 2 ^ 31) :
    Dispatcher.queueLoop (onEvent floats input) (fuel + 1) i d =
      Dispatcher.queueLoop (onEvent floats input) fuel (i + 1) (afterWheel floats d c m t position [(q, dir)]) := by
  have hchecker : d.call (onEvent floats input) c q = .ok (false, { d with calls := d.calls ++ [(c, q)] }) :=
    call_eq hwait.1 hwait.2 hd.checker rfl
  have hmover : Dispatcher.call (onEvent floats input) { d with calls := d.calls ++ [(c, q)] } m q = .ok (false,
      { d with world := d.world.put t (scrolled floats position dir), calls := d.calls ++ [(c, q)] ++ [(m, q)] }) :=
    call_eq (d := { d with calls := d.calls ++ [(c, q)] }) hwait.1 hwait.2 hd.mover (scroll_spec hpos)
  have hserve : Dispatcher.instantLoop (onEvent floats input) q d.listener 0 d = .ok { d with
      world := d.world.put t (scrolled floats position dir), calls := d.calls ++ [(c, q)] ++ [(m, q)] } := by
    rw [hd.listener, instantLoop_pass hchecker (by omega)]
    exact instantLoop_last hmover hwait.1 (by omega)
  refine queueLoop_round hq hserve ?_ hi
  have hevent : { d with
      world := d.world.put t (scrolled floats position dir), calls := d.calls ++ [(c, q)] ++ [(m, q)] }.deref q =
      .ok { usable := false, destroy := true } := by
    unfold Dispatcher.deref
    rw [hwait.1]
  rw [Dispatcher.discard, hevent, ok_bind, if_pos rfl, Dispatcher.delete, hevent, ok_bind]
  unfold afterWheel
  simp only [List.map_cons, List.map_nil, List.mem_singleton, List.foldl_cons, List.foldl_nil, List.flatMap_cons,
    List.flatMap_nil, List.append_nil, List.append_assoc, List.cons_append, List.nil_append]
  rw [pure_eq_ok]
  congr 2
  funext a
  exact Function.update_apply _ _ _ _

theorem Stage.put_self (h : s.positions t = some position) : s.put t position = s := by
  unfold Stage.put
  rw [← h, Function.update_eq_self]

/-- The first of the events of the wheel, then the others. -/
theorem afterWheel_cons {w : Addr × UInt8} {ws : List (Addr × UInt8)} :
    afterWheel floats (afterWheel floats d c m t position [w]) c m t (scrolled floats position w.2) ws =
      afterWheel floats d c m t position (w :: ws) := by
  unfold afterWheel Stage.put
  simp only [List.map_cons, List.map_nil, List.mem_cons, List.foldl_cons, List.foldl_nil, List.flatMap_cons,
    List.flatMap_nil, List.append_nil, List.append_assoc, Function.update_idem, List.not_mem_nil, or_false]
  congr 1
  funext a
  by_cases ha : a = w.1 <;> simp [ha]

/-- The events of the wheel are served, one after another. -/
theorem wheel_rounds (floats : Arithmetic M) (input : FrameInput) (fuel : Nat) {r : Addr} {waiting : List (Addr × UInt8)}
    (done : List Addr) {rest : List Addr} (hd : Attending d c r m t)
    (hpos : d.world.positions t = some position) (hqueue : d.onNextUpdate = done ++ waiting.map Prod.fst ++ rest)
    (hwait : ∀ w ∈ waiting, Waits d w.1 w.2) (hnodup : (waiting.map Prod.fst).Nodup)
    (hsize : done.length + waiting.length < 2 ^ 31) :
    Dispatcher.queueLoop (onEvent floats input) (waiting.length + fuel) done.length d =
      Dispatcher.queueLoop (onEvent floats input) fuel (done.length + waiting.length)
        (afterWheel floats d c m t position waiting) := by
  induction waiting generalizing d done position with
  | nil =>
    have hsame : afterWheel floats d c m t position [] = d := by
      unfold afterWheel
      simp only [List.map_nil, List.not_mem_nil, if_false, List.foldl_nil, List.flatMap_nil, List.append_nil,
        Stage.put_self hpos]
    rw [hsame, List.length_nil, Nat.zero_add, Nat.add_zero]
  | cons w ws ih =>
    obtain ⟨hw, hws⟩ := List.forall_mem_cons.mp hwait
    obtain ⟨hnot, hnodup⟩ := List.nodup_cons.mp hnodup
    rw [List.length_cons] at hsize
    have hentry : d.onNextUpdate[done.length]? = some w.1 := by
      rw [hqueue, List.append_assoc, List.getElem?_append_right (le_refl _), Nat.sub_self]
      rfl
    have hnext := @ih (afterWheel floats d c m t position [w]) (scrolled floats position w.2)
      (done ++ [w.1]) ⟨hd.listener, hd.checker, hd.mover⟩
      (Function.update_self _ _ _) (by rw [List.append_assoc]; simpa [afterWheel] using hqueue) ?_ hnodup
      (by rw [List.length_append, List.length_singleton]; omega)
    · rw [List.length_append, List.length_singleton] at hnext
      rw [List.length_cons, Nat.add_right_comm]
      refine (wheel_round hd hpos hentry hw (by omega)).trans (hnext.trans ?_)
      rw [afterWheel_cons, Nat.add_assoc, Nat.add_comm 1]
    · intro v hv
      have hne : v.1 ≠ w.1 := fun h => hnot (h ▸ List.mem_map_of_mem hv)
      refine ⟨?_, (hws v hv).2⟩
      unfold afterWheel
      simpa [hne] using (hws v hv).1

/-- The event of the mouse is handed to both listeners, and stays. -/
theorem mouse_round (floats : Arithmetic M) (input : FrameInput) (fuel : Nat) {i : Nat} {r : Addr}
    {renderer : DrawableRenderer} (event : MouseButtonEvent) {mPoint cursor : POINT} {n : Addr → Nat}
    (hd : Attending d c r m t) (hr : d.world.renderers r = some renderer)
    (hcamera : renderer.buttons ≠ [] → d.world.Filming renderer.currentCamera)
    (hpos : d.world.positions t = some position) (hpressable : ∀ b ∈ renderer.buttons, d.world.Pressable b)
    (hnodup : renderer.buttons.Nodup) (hcounts : d.world.Counted renderer.buttons event.LButtonAlt n)
    (hpoint : mPoint.Near) (hcursor : cursor.Near) (hx : event.mousePosX = cursor.x) (hy : event.mousePosY = cursor.y)
    (hx' : event.mousePosXAlt = mPoint.x) (hy' : event.mousePosYAlt = mPoint.y)
    (hq : d.onNextUpdate[i]? = some q) (hevent : d.events q = some { usable := true, destroy := false })
    (hdata : d.world.mouse q = some (.button event)) (hi : i + 1 < 2 ^ 31) :
    let moved := if event.LButton && event.LButtonAlt then dragged floats position mPoint cursor else position
    ∃ s, Dispatcher.queueLoop (onEvent floats input) (fuel + 1) i d =
        Dispatcher.queueLoop (onEvent floats input) fuel (i + 1)
          { d with world := s.put t moved, calls := d.calls ++ [(c, q), (m, q)] } ∧
      Acted d.world
        (d.world.clicked renderer.buttons (input.over floats d.world) (event.LButton != event.LButtonAlt) n) s ∧
      s.face = d.world.face ∧
      s.Counted renderer.buttons event.LButton
        (fun b => counted (input.over floats d.world b) (event.LButton != event.LButtonAlt) (n b)) := by
  intro moved
  obtain ⟨s, hs, htoggled, hface, hcounted⟩ := buttonChecker_spec floats input hr hcamera hpressable hnodup hcounts
  refine ⟨s, ?_, htoggled, hface, hcounted⟩
  have hchecker : d.call (onEvent floats input) c q = .ok (false, { d with world := s, calls := d.calls ++ [(c, q)] }) :=
    call_eq hevent hdata hd.checker hs
  have hmover : Dispatcher.call (onEvent floats input) { d with world := s, calls := d.calls ++ [(c, q)] } m q =
      .ok (event.LButton && event.LButtonAlt,
        { d with world := s.put t moved, calls := d.calls ++ [(c, q)] ++ [(m, q)] }) := by
    refine call_eq (d := { d with world := s, calls := d.calls ++ [(c, q)] }) hevent (htoggled.mouse ▸ hdata)
      (htoggled.listeners ▸ hd.mover) ?_
    exact drag_spec (htoggled.positions ▸ hpos) hpoint hcursor hx hy hx' hy'
  have hserve : Dispatcher.instantLoop (onEvent floats input) q d.listener 0 d =
      .ok { d with world := s.put t moved, calls := d.calls ++ [(c, q)] ++ [(m, q)] } := by
    rw [hd.listener, instantLoop_pass hchecker (by omega)]
    exact instantLoop_last hmover hevent (by omega)
  refine queueLoop_round hq hserve ?_ hi
  rw [Dispatcher.discard, Dispatcher.deref]
  dsimp only
  rw [hevent, ok_bind, if_neg (by simp), List.append_assoc]
  rfl

end

end SceenViewer
