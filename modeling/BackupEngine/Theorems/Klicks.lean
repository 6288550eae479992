import BackupEngine.Engine.Button

/-!
# When a button is clicked

A click is a press and then a release over a button, with the pointer staying over it. `checkKlicked` keeps two flags, `down`
and `up`, and calls `klicked` as soon as both have been set, in either order. The flag `down` stands for a press that waits
for its release, as it should; but a release that ends no press leaves `up` behind, and the next press is then taken for a
click.
-/

namespace Engine

open Cpp Transition

namespace Report

/-- A press over the button. -/
def Press (r : Report) : Prop := r.inside = true ∧ r._down = true

/-- A release over the button. -/
def Release (r : Report) : Prop := r.inside = true ∧ r._down = false ∧ r._up = true

/-- The pointer is over the button, and no click is fired. -/
def Quiet (r : Report) : Prop := r.inside = true ∧ r.klicked = []

theorem Press.not_release {r : Report} (h : r.Press) : ¬r.Release := fun hrelease =>
  Bool.false_ne_true (hrelease.2.1.symm.trans h.2)

end Report

namespace Klicking

variable {floats : Floats} {s s' : Klicking} {call : KlickCall} {past : List Report} {r : Report}

/-- A release over the button after a press, with nothing but quiet calls from the press on. -/
def Due (past : List Report) (r : Report) : Prop := r.Release ∧ Since Report.Press Report.Quiet past

/-- Each call of `checkKlicked` so far has called `klicked` on the actors where a click was due, and on none elsewhere. -/
def Clicks (s : Klicking) : Prop :=
  ∀ p r q, s.past = p ++ r :: q → (Due p r → r.klicked = s.button.payload) ∧ (¬Due p r → r.klicked = [])

/-- The call is no press over the button while `up` is set; without actors any call will do. -/
def Steady (floats : Floats) (s : Klicking) (call : KlickCall) : Prop :=
  s.button.payload = [] ∨ ¬(s.inside floats call = true ∧ call._down = true ∧ s.button.up = true)

/-! ## One call -/

/-- What a call can do, by the flags before and after it. -/
inductive Reaction (payload : List Addr) (r : Report) : (up down up' down' : Bool) → Prop
  | outside {up down : Bool} (out : r.inside = false) (none : r.klicked = []) : Reaction payload r up down false false
  | pressed {down : Bool} (press : r.Press) (none : r.klicked = []) : Reaction payload r false down false true
  | pressedUp {down : Bool} (press : r.Press) (all : r.klicked = payload) : Reaction payload r true down false false
  | released {up : Bool} (release : r.Release) (none : r.klicked = []) : Reaction payload r up false true false
  | releasedDown {up : Bool} (release : r.Release) (all : r.klicked = payload) : Reaction payload r up true false false
  | idle {up down : Bool} (inside : r.inside = true) (hold : r._down = false ∧ r._up = false) (none : r.klicked = []) :
    Reaction payload r up down up down

theorem filterMap_each (b : Button) (c : ActorCall) :
    (b.each c).filterMap (fun c => if c.1 = .klicked then some c.2 else none) = if c = .klicked then b.payload else [] := by
  unfold Button.each
  rw [List.filterMap_map]
  split
  · rename_i hc
    subst hc
    exact List.filterMap_some
  · rename_i hc
    exact List.filterMap_eq_nil_iff.mpr fun a _ => if_neg hc

/-- What a call does is one of these, and it is noted down. -/
theorem next_reaction (h : s.next floats call = .ok s') :
    ∃ r, r.inside = s.inside floats call ∧ r._down = call._down ∧ s'.past = s.past ++ [r] ∧
      s'.button.payload = s.button.payload ∧
      Reaction s.button.payload r s.button.up s.button.down s'.button.up s'.button.down := by
  unfold next at h
  obtain ⟨⟨button, calls⟩, hcheck, h⟩ := bind_eq_ok.mp h
  cases h
  refine ⟨_, rfl, rfl, rfl, ?_⟩
  dsimp only
  unfold Button.checkKlicked at hcheck
  obtain ⟨transform, htransform, hcheck⟩ := bind_eq_ok.mp hcheck
  have hover : s.inside floats call = Button.inside floats call.x call.y (call.screenPos transform) := by
    unfold inside
    rw [htransform]
  rw [← hover] at hcheck
  split at hcheck
  · rename_i hinside
    split at hcheck
    · rename_i hdown
      split at hcheck
      · rename_i hup
        cases hcheck
        rw [hup]
        refine ⟨rfl, .pressedUp ⟨hinside, hdown⟩ ?_⟩
        simp [List.filterMap_append, filterMap_each]
      · rename_i hup
        cases hcheck
        rw [Bool.not_eq_true] at hup
        rw [hup]
        refine ⟨rfl, .pressed ⟨hinside, hdown⟩ ?_⟩
        simp [List.filterMap_append, filterMap_each]
    · rename_i hdown
      rw [Bool.not_eq_true] at hdown
      split at hcheck
      · rename_i hup
        split at hcheck
        · rename_i hflag
          cases hcheck
          rw [hflag]
          refine ⟨rfl, .releasedDown ⟨hinside, hdown, hup⟩ ?_⟩
          simp [List.filterMap_append, filterMap_each]
        · rename_i hflag
          cases hcheck
          rw [Bool.not_eq_true] at hflag
          rw [hflag]
          refine ⟨rfl, .released ⟨hinside, hdown, hup⟩ ?_⟩
          simp [List.filterMap_append, filterMap_each]
      · rename_i hup
        cases hcheck
        exact ⟨rfl, .idle hinside ⟨hdown, by simpa using hup⟩ rfl⟩
  · rename_i hinside
    cases hcheck
    exact ⟨rfl, .outside (by simpa using hinside) rfl⟩

/-- After a call the flag `down` is set exactly if a press waits for its release, if it was so before. -/
theorem Reaction.down_iff {payload : List Addr} {up down up' down' : Bool} (hne : payload ≠ [])
    (h : Reaction payload r up down up' down') (hdown : down = true ↔ Since Report.Press Report.Quiet past) :
    down' = true ↔ Since Report.Press Report.Quiet (past ++ [r]) := by
  rw [since_concat]
  cases h with
  | outside out none =>
    refine iff_of_false nofun fun hquiet => ?_
    rw [hquiet.1.1] at out
    cases out
  | pressed press none => exact iff_of_true rfl ⟨⟨press.1, none⟩, .inl press⟩
  | pressedUp press all => exact iff_of_false nofun fun hquiet => hne (all ▸ hquiet.1.2)
  | released release none =>
    refine iff_of_false nofun ?_
    rintro ⟨_, hpress | hsince⟩
    · exact hpress.not_release release
    · cases hdown.mpr hsince
  | releasedDown release all => exact iff_of_false nofun fun hquiet => hne (all ▸ hquiet.1.2)
  | idle inside hold none =>
    rw [hdown]
    constructor
    · exact fun hsince => ⟨⟨inside, none⟩, .inr hsince⟩
    · rintro ⟨_, hpress | hsince⟩
      · rw [hpress.2] at hold
        cases hold.1
      · exact hsince

/-- A call fires where a click is due and nowhere else, unless it is a press while `up` is set. -/
theorem Reaction.fires_iff {payload : List Addr} {up down up' down' : Bool} (hne : payload ≠ [])
    (h : Reaction payload r up down up' down') (hdown : down = true ↔ Since Report.Press Report.Quiet past) :
    ((Due past r → r.klicked = payload) ∧ (¬Due past r → r.klicked = [])) ↔ ¬(r.Press ∧ up = true) := by
  cases h with
  | outside out none =>
    refine iff_of_true ⟨fun hdue => ?_, fun _ => none⟩ fun hpress => ?_
    · rw [hdue.1.1] at out
      cases out
    · rw [hpress.1.1] at out
      cases out
  | pressed press none =>
    exact iff_of_true ⟨fun hdue => absurd hdue.1 press.not_release, fun _ => none⟩ fun hpress => nomatch hpress.2
  | pressedUp press all =>
    refine iff_of_false (fun hfires => hne ?_) (not_not.mpr ⟨press, rfl⟩)
    rw [← all]
    exact hfires.2 fun hdue => press.not_release hdue.1
  | released release none =>
    exact iff_of_true ⟨fun hdue => (nomatch hdown.mpr hdue.2), fun _ => none⟩ fun hpress => hpress.1.not_release release
  | releasedDown release all =>
    exact iff_of_true ⟨fun _ => all, fun hnot => absurd ⟨release, hdown.mp rfl⟩ hnot⟩ fun hpress =>
      hpress.1.not_release release
  | idle inside hold none =>
    refine iff_of_true ⟨fun hdue => ?_, fun _ => none⟩ fun hpress => ?_
    · rw [hdue.1.2.2] at hold
      cases hold.2
    · rw [hpress.1.2] at hold
      cases hold.1

/-- Without actors a call fires nothing. -/
theorem Reaction.klicked_nil {up down up' down' : Bool} (h : Reaction [] r up down up' down') : r.klicked = [] := by
  cases h <;> assumption

/-! ## Runs -/

/-- One more call, for the clicks so far. -/
theorem clicks_concat (hpast : s'.past = s.past ++ [r]) (hpayload : s'.button.payload = s.button.payload) :
    s'.Clicks ↔ s.Clicks ∧ (Due s.past r → r.klicked = s.button.payload) ∧ (¬Due s.past r → r.klicked = []) := by
  unfold Clicks
  rw [hpast, hpayload]
  constructor
  · intro hall
    refine ⟨fun p r' q hsplit => hall p r' (q ++ [r]) ?_, hall s.past r [] rfl⟩
    rw [hsplit, List.append_assoc, List.cons_append]
  · rintro ⟨hall, hlast⟩ p r' q hsplit
    rcases List.eq_nil_or_concat' q with rfl | ⟨q, b, rfl⟩
    · obtain ⟨rfl, heq⟩ := List.append_inj' hsplit rfl
      cases heq
      exact hlast
    · rw [← List.cons_append, ← List.append_assoc] at hsplit
      exact hall p r' q (List.append_inj' hsplit rfl).1

/-- The flag `down` stands for a press that waits for its release. -/
def Waits (s : Klicking) : Prop :=
  s.button.payload ≠ [] → (s.button.down = true ↔ Since Report.Press Report.Quiet s.past)

/-- In a run of calls on a new button, clicks are fired where they are due and nowhere else exactly if no call is a press over
the button while `up` is set. -/
theorem clicks_iff {button : Button} (hdown : button.down = false) {calls : List KlickCall}
    (hrun : Run (machine floats) { button } calls s) :
    (∀ bs u, bs <+: calls → Run (machine floats) { button } bs u → u.Clicks) ↔
      Run ((machine floats).when (Steady floats)) { button } calls s := by
  have hwaits : Waits { button } := fun _ => iff_of_false (hdown ▸ nofun) not_since_nil
  have hclicks : Clicks { button } := fun p r q h => absurd h.symm (List.append_ne_nil_of_right_ne_nil p (List.cons_ne_nil r q))
  refine hrun.always_iff_under hwaits hclicks ?_
  rintro t call u hwaits hclicks ⟨_, hstep⟩
  obtain ⟨r, hinside, hpress, hpast, hpayload, hreaction⟩ := next_reaction hstep
  rw [clicks_concat hpast hpayload, and_iff_right hclicks]
  by_cases hne : t.button.payload = []
  · refine ⟨fun hne' => absurd (hpayload.trans hne) hne', iff_of_true ?_ (.inl hne)⟩
    rw [hne] at hreaction ⊢
    exact ⟨fun _ => hreaction.klicked_nil, fun _ => hreaction.klicked_nil⟩
  · refine ⟨fun _ => hpast ▸ hreaction.down_iff hne (hwaits hne), ?_⟩
    rw [hreaction.fires_iff hne (hwaits hne)]
    unfold Steady Report.Press
    rw [hinside, hpress, or_iff_right hne, and_assoc]

/-- `float` on whole numbers and on numbers that are not negative, whose order is the order of their bit patterns. -/
def wholeFloats : Floats where
  ofUInt16 n :=
    let e := n.toNat.log2
    if n = 0 then 0 else UInt32.ofNat ((127 + e) * 2 ^ 23 + (n.toNat - 2 ^ e) * 2 ^ (23 - e))
  less a b := a < b

/-- A call with the pointer at a place on the diagonal of the screen, for a button between 10 and 20. -/
def diagonal (place : UInt16) (_down _up : Bool) : KlickCall where
  x := place
  y := place
  screenPos _ := (wholeFloats.ofUInt16 20, wholeFloats.ofUInt16 10, wholeFloats.ofUInt16 10, wholeFloats.ofUInt16 20)
  _down := _down
  _up := _up

/-- A button with one actor. -/
def oneActor : Button := { transform := some 0, up := false, down := false, payload := [7] }

/-- The report of such a call. -/
def report (_down _up : Bool) (klicked : List Addr) : Report := { inside := true, _down, _up, klicked }

/-- A press and a release over the button: the click is fired at the release, and both calls did what was due. -/
theorem clicks_press_release :
    Clicks { button := oneActor, past := [report true false [], report false true [7]] } := by
  have hrun : Run ((machine wholeFloats).when (Steady wholeFloats)) { button := oneActor }
      [diagonal 15 true false, diagonal 15 false true]
      { button := oneActor, past := [report true false [], report false true [7]] } :=
    .cons (t := { button := { oneActor with down := true }, past := [report true false []] })
      ⟨⟨trivial, .inr (by decide +kernel)⟩, by decide +kernel⟩
      (.single ⟨⟨trivial, .inr (by decide +kernel)⟩, by decide +kernel⟩)
  exact (clicks_iff rfl hrun.of_when).mpr hrun _ _ (List.prefix_refl _) hrun.of_when

/-- A release over the button that ends no press, then a press: the click is fired at the press. -/
theorem click_at_press : ∃ s, Run (machine wholeFloats) { button := oneActor }
    [diagonal 15 false true, diagonal 15 true false] s ∧ ¬s.Clicks := by
  refine ⟨{ button := oneActor, past := [report false true [], report true false [7]] },
    .cons (t := { button := { oneActor with up := true }, past := [report false true []] })
      ⟨trivial, by decide +kernel⟩ (.single ⟨trivial, by decide +kernel⟩), fun hclicks => ?_⟩
  have hnone := (hclicks [report false true []] (report true false [7]) [] rfl).2 fun hdue => nomatch hdue.1.2.1
  cases hnone

end Klicking

end Engine
