import BackupEngine.Application.SceenViewer
import BackupEngine.Lemmas.Reload
import BackupEngine.Serializer.SecondStorrage

/-!
# A second storage is not isolated

The objects of any storage look ids up in the singleton. What is done on another storage is the same whatever the singleton
holds, and leaves the singleton alone, as long as nothing is looked up: no object has a parent or a child when its parent is
set or its children are gone through, and no component has an id to resolve.
-/

namespace Serializer

open Cpp

variable {κ C : Type} [ComponentClasses κ C]

/-- `afterSet` of components that `P` holds of does not depend on the singleton, and `P` holds of them afterwards. -/
structure Independent (P : κ → Prop) : Prop where
  same : ∀ c, P c → ∀ st st' (me : GameObject κ), ComponentClasses.afterSet st me c = ComponentClasses.afterSet st' me c
  keeps : ∀ c c', P c → ∀ st (me : GameObject κ), ComponentClasses.afterSet st me c = .ok c' → P c'

/-- A call looks nothing up in the singleton: the object has no parent and gets none, or has no child, or the components have
no id to resolve. -/
def StorrageCall.LooksUpNothing (P : κ → Prop) (own : ObjectStorrage κ) : StorrageCall C → Prop
  | .createGameObject => True
  | .set _ => True
  | .setParrentID this parrentID => parrentID = EMPTY_ID ∧ ∀ me, own.getById this = some me → me.parrentID = EMPTY_ID
  | .setParrent this _ => ∀ me, own.getById this = some me → me.parrentID = EMPTY_ID
  | .toString this _ _ => ∀ me, own.getById this = some me → me.childrenIds = []
  | .findComponentsInChildren this _ => ∀ me, own.getById this = some me → me.childrenIds = []
  | .findComponentsInChildrenNamed this _ _ => ∀ me, own.getById this = some me → me.childrenIds = []
  | .afterSetObject this => ∀ me, own.getById this = some me → ∀ c ∈ me.componenten, P c.data
  | .afterSet => own.All P

/-! ## Single calls -/

section

variable {P : κ → Prop} {own own' : ObjectStorrage κ} {singleton : ObjectStorrage κ} {me : GameObject κ}

theorem leaveParrent_of_empty (h : me.parrentID = EMPTY_ID) : singleton.leaveParrent me = .ok singleton := by
  rw [ObjectStorrage.leaveParrent, if_neg (not_not_intro h)]
  rfl

theorem enterParrent_of_empty : singleton.enterParrent EMPTY_ID me = .ok singleton := by
  rw [ObjectStorrage.enterParrent, if_neg (not_not_intro rfl)]
  rfl

/-- Without children the string is that of the object. -/
theorem toString_of_leaf (singleton singleton' : ObjectStorrage κ) (h : me.childrenIds = []) (depth layer : Nat) :
    GameObject.toString singleton depth (me, layer) = GameObject.toString singleton' depth (me, layer) := by
  cases depth with
  | zero => rfl
  | succ depth => simp only [GameObject.toString, Forest.within, GameObject.toStringBody, h, List.isEmpty_nil, if_true]

theorem findNamed_of_leaf (singleton singleton' : ObjectStorrage κ) (h : me.childrenIds = []) (name : List UInt8)
    (depth : Nat) :
    GameObject.findComponentsInChildrenNamed singleton name depth me =
      GameObject.findComponentsInChildrenNamed singleton' name depth me := by
  cases depth with
  | zero => rfl
  | succ depth =>
    simp only [GameObject.findComponentsInChildrenNamed, Forest.within, GameObject.findInChildren,
      GameObject.appendChildren, Forest.each, h, List.zipIdx_nil, List.foldlM_nil]

/-- One component is told: the object it is in has it replaced. -/
theorem afterSetObject_step (hP : Independent P) {st st' : ObjectStorrage κ} {ID : Int32} {i : Nat}
    (h : ∀ me, st.getById ID = some me → ∀ c ∈ me.componenten, P c.data)
    (hstep : (do
      let me ← st.deref ID
      let c ← elemAt me.componenten i
      let data ← ComponentClasses.afterSet singleton me c.data
      let componenten ← setAt me.componenten i { c with data }
      return st.store ID { me with componenten } : Comp (ObjectStorrage κ)) = .ok st') :
    ∃ me me', st.getById ID = some me ∧ st' = st.store ID me' ∧ ∀ c ∈ me'.componenten, P c.data := by
  obtain ⟨me, hme, hstep⟩ := bind_eq_ok.mp hstep
  obtain ⟨c, hc, hstep⟩ := bind_eq_ok.mp hstep
  obtain ⟨data, hdata, hstep⟩ := bind_eq_ok.mp hstep
  obtain ⟨cs, hcs, hstep⟩ := bind_eq_ok.mp hstep
  cases hstep
  obtain ⟨_, rfl⟩ := setAt_eq_ok.mp hcs
  have hmine := h me (ObjectStorrage.deref_eq_ok.mp hme)
  refine ⟨me, _, ObjectStorrage.deref_eq_ok.mp hme, rfl, fun d hd => ?_⟩
  rcases List.mem_or_eq_of_mem_set hd with hd | rfl
  · exact hmine d hd
  · exact hP.keeps c.data data (hmine c (List.mem_of_getElem? (elemAt_eq_ok.mp hc))) _ _ hdata

theorem afterSetObjectBeside_eq (singleton singleton' : ObjectStorrage κ) (hP : Independent P) {ID : Int32}
    (h : ∀ me, own.getById ID = some me → ∀ c ∈ me.componenten, P c.data) :
    own.afterSetObjectBeside singleton ID = own.afterSetObjectBeside singleton' ID := by
  unfold ObjectStorrage.afterSetObjectBeside
  refine bind_congr fun me => bind_congr fun _ => ?_
  refine foldlM_congr (fun st => ∀ me, st.getById ID = some me → ∀ c ∈ me.componenten, P c.data) ?_ ?_ h
  · intro st i hst
    cases hme : st.deref ID with
    | error e => rfl
    | ok me =>
      simp only [ok_bind]
      cases hc : elemAt me.componenten i with
      | error e => rfl
      | ok c =>
        simp only [ok_bind]
        rw [hP.same c.data (hst me (ObjectStorrage.deref_eq_ok.mp hme) c (List.mem_of_getElem? (elemAt_eq_ok.mp hc)))]
  · intro st i st' hst hstep
    obtain ⟨me, me', hme, rfl, hme'⟩ := afterSetObject_step hP hst hstep
    intro o ho
    rw [ObjectStorrage.getById_store hme, if_pos rfl] at ho
    cases ho
    exact hme'

theorem All.afterSetObjectBeside (hP : Independent P) (h : own.All P) {ID : Int32}
    (hset : own.afterSetObjectBeside singleton ID = .ok own') : own'.All P := by
  obtain ⟨_, _, hset⟩ := bind_eq_ok.mp hset
  obtain ⟨_, _, hset⟩ := bind_eq_ok.mp hset
  refine foldlM_invariant (fun st => st.All P) (fun st i st' hst hstep => ?_) h hset
  obtain ⟨me, me', hme, rfl, hme'⟩ := afterSetObject_step hP (hst ID) hstep
  intro k o ho
  rcases ObjectStorrage.getById_store_cases ho with rfl | ho
  · exact hme'
  · exact hst k o ho

theorem afterSetBeside_eq (singleton singleton' : ObjectStorrage κ) (hP : Independent P) (h : own.All P) :
    own.afterSetBeside singleton = own.afterSetBeside singleton' := by
  unfold ObjectStorrage.afterSetBeside
  refine bind_congr fun _ => ?_
  exact foldlM_congr (fun st => st.All P) (fun st i hst => afterSetObjectBeside_eq _ _ hP (hst _))
    (fun st i st' hst hset => All.afterSetObjectBeside hP hst hset) h

end

/-! ## Sequences of calls -/

namespace Storrages

/-- Each of the calls that are made looks nothing up. -/
def LooksUpNothing (P : κ → Prop) : Storrages κ → List (StorrageCall C) → Prop
  | _, [] => True
  | s, c :: cs => c.LooksUpNothing P s.own ∧ ∀ t, s.call c = .ok t → LooksUpNothing P t cs

/-- The same storages with another singleton. -/
def swap (singleton : ObjectStorrage κ) (s : Storrages κ) : Storrages κ := { s with singleton }

variable {P : κ → Prop} {s : Storrages κ}

/-- A call that looks nothing up does with another singleton what it does with this one. -/
theorem call_swap (hP : Independent P) {c : StorrageCall C} (hc : c.LooksUpNothing P s.own) (singleton : ObjectStorrage κ) :
    (s.swap singleton).call c = (s.call c).map (swap singleton) := by
  cases c with
  | createGameObject =>
    simp only [call, swap]
    cases s.own.createGameObject s.world <;> rfl
  | set image =>
    simp only [call, swap]
    cases s.own.set (image, s.world) <;> rfl
  | setParrentID this parrentID =>
    obtain ⟨rfl, hempty⟩ := hc
    simp only [call, swap, ObjectStorrage.setParrentIDBeside]
    cases hme : s.own.deref this with
    | error e => rfl
    | ok me =>
      have hme := hempty me (ObjectStorrage.deref_eq_ok.mp hme)
      simp only [ok_bind, leaveParrent_of_empty hme, enterParrent_of_empty]
      rfl
  | setParrent this parrent =>
    simp only [call, swap, ObjectStorrage.setParrentBeside]
    cases hme : s.own.deref this with
    | error e => rfl
    | ok me =>
      have hme := hc me (ObjectStorrage.deref_eq_ok.mp hme)
      simp only [ok_bind, leaveParrent_of_empty hme]
      cases s.own.deref parrent with
      | error e => rfl
      | ok temp =>
        simp only [ok_bind]
        cases (s.own.store parrent (temp.addChild me.ID)).deref this <;> rfl
  | toString this layer depth =>
    simp only [call, swap]
    cases hme : s.own.deref this with
    | error e => rfl
    | ok me =>
      have hleaf := hc me (ObjectStorrage.deref_eq_ok.mp hme)
      simp only [ok_bind]
      rw [toString_of_leaf singleton s.singleton hleaf]
      cases GameObject.toString s.singleton depth (me, layer) <;> rfl
  | findComponentsInChildren this T =>
    simp only [call, swap]
    cases hme : s.own.deref this with
    | error e => rfl
    | ok me =>
      have hleaf := hc me (ObjectStorrage.deref_eq_ok.mp hme)
      simp only [ok_bind, GameObject.findComponentsInChildren, hleaf, List.foldlM_nil]
      rfl
  | findComponentsInChildrenNamed this name depth =>
    simp only [call, swap]
    cases hme : s.own.deref this with
    | error e => rfl
    | ok me =>
      have hleaf := hc me (ObjectStorrage.deref_eq_ok.mp hme)
      simp only [ok_bind]
      rw [findNamed_of_leaf singleton s.singleton hleaf]
      cases GameObject.findComponentsInChildrenNamed s.singleton name depth me <;> rfl
  | afterSetObject this =>
    simp only [call, swap]
    rw [afterSetObjectBeside_eq singleton s.singleton hP hc]
    cases s.own.afterSetObjectBeside s.singleton this <;> rfl
  | afterSet =>
    simp only [call, swap]
    rw [afterSetBeside_eq singleton s.singleton hP hc]
    cases s.own.afterSetBeside s.singleton <;> rfl

/-- Nor do the calls of a sequence depend on the singleton. -/
theorem calls_swap (hP : Independent P) {cs : List (StorrageCall C)} (h : LooksUpNothing P s cs)
    (singleton : ObjectStorrage κ) : (s.swap singleton).calls cs = (s.calls cs).map (swap singleton) := by
  induction cs generalizing s with
  | nil => rfl
  | cons c cs ih =>
    simp only [calls, List.foldlM_cons, call_swap hP h.1 singleton]
    cases hcall : s.call c with
    | error e => rfl
    | ok t => exact ih (h.2 t hcall)

/-- Whatever the singleton holds, the calls give the same results and leave the storage in the same state, and the singleton
is left as it is. -/
structure Isolated (own : ObjectStorrage κ) (world : World) (cs : List (StorrageCall C)) : Prop where
  same : ∀ singleton singleton' : ObjectStorrage κ,
    (calls { own := own, singleton := singleton, world := world } cs).map (fun t => (t.own, t.results)) =
      (calls { own := own, singleton := singleton', world := world } cs).map (fun t => (t.own, t.results))
  unchanged : ∀ (singleton : ObjectStorrage κ) (t : Storrages κ),
    calls { own := own, singleton := singleton, world := world } cs = .ok t → t.singleton = singleton

theorem isolated (hP : Independent P) {own singleton : ObjectStorrage κ} {world : World} {cs : List (StorrageCall C)}
    (h : LooksUpNothing P { own := own, singleton := singleton, world := world } cs) : Isolated own world cs := by
  have hswap := fun G => calls_swap hP h G
  simp only [swap] at hswap
  constructor
  case same =>
    intro G G'
    rw [hswap G, hswap G']
    cases calls { own := own, singleton := singleton, world := world } cs <;> rfl
  case unchanged =>
    intro G t ht
    rw [hswap G] at ht
    cases hcalls : calls { own := own, singleton := singleton, world := world } cs with
    | error e =>
      rw [hcalls] at ht
      cases ht
    | ok u =>
      rw [hcalls] at ht
      cases ht
      rfl

end Storrages

end Serializer

namespace SceenViewer

open Cpp Serializer

/-- `afterSet` of a component of the engine resolves no id in the singleton. -/
def ResolvesNothing : Engine.Data → Prop
  | .transform c => c.pGOID = -1
  | .button c => c.payloadIDs = []
  | .drawableRenderer _ => False
  | .instancedSprite c => c.instancenID = []
  | .instancedTeilSprite c => c.instancenIDs = []
  | .stringRenderer c => c.instancenIDs = []
  | _ => True

/-- `afterSet` of a component of the program resolves no id in the singleton. -/
def Data.ResolvesNothing : Data → Prop
  | engine c => SceenViewer.ResolvesNothing c
  | _ => True

/-- A list of ids that is empty is resolved without a lookup. -/
theorem afterSet_of_resolvesNothing {c : Engine.Data} (h : ResolvesNothing c) (find find' : Engine.Lookup)
    (own : Engine.Class → List Addr) :
    c.afterSet find own = c.afterSet find' own ∧ ∀ c', c.afterSet find own = .ok c' → ResolvesNothing c' := by
  cases c with
  | transform c =>
    have hnone : ∀ find, Engine.Transform.afterSet find c = .ok c := fun find => if_neg (not_not_intro h)
    refine ⟨by simp only [Engine.Data.afterSet, hnone], fun c' hc' => ?_⟩
    rw [Engine.Data.afterSet, hnone] at hc'
    cases hc'
    exact h
  | button c =>
    have hnone : ∀ find, c.afterSet find = .ok { c with payload := c.payload ++ [] } := by
      intro find
      rw [Engine.Button.afterSet, show c.payloadIDs = [] from h]
      rfl
    refine ⟨by simp only [Engine.Data.afterSet, hnone], fun c' hc' => ?_⟩
    rw [Engine.Data.afterSet, hnone] at hc'
    cases hc'
    exact h
  | drawableRenderer c => exact h.elim
  | instancedSprite c =>
    have hnone : ∀ find, c.afterSet find = .ok { c with instancen := c.instancen ++ [] } := by
      intro find
      rw [Engine.InstancedSprite.afterSet, show c.instancenID = [] from h]
      rfl
    refine ⟨by simp only [Engine.Data.afterSet, hnone], fun c' hc' => ?_⟩
    rw [Engine.Data.afterSet, hnone] at hc'
    cases hc'
    exact h
  | instancedTeilSprite c =>
    have hnone : ∀ find, c.afterSet find = .ok { c with instancen := c.instancen ++ [] } := by
      intro find
      rw [Engine.InstancedTeilSprite.afterSet, show c.instancenIDs = [] from h]
      rfl
    refine ⟨by simp only [Engine.Data.afterSet, hnone], fun c' hc' => ?_⟩
    rw [Engine.Data.afterSet, hnone] at hc'
    cases hc'
    exact h
  | stringRenderer c =>
    have hnone : ∀ find, c.afterSet find = .ok { c with instancen := c.instancen ++ [] } := by
      intro find
      rw [Engine.StringRenderer.afterSet, show c.instancenIDs = [] from h]
      rfl
    refine ⟨by simp only [Engine.Data.afterSet, hnone], fun c' hc' => ?_⟩
    rw [Engine.Data.afterSet, hnone] at hc'
    cases hc'
    exact h
  | stringRendererInstance c =>
    refine ⟨rfl, fun c' hc' => ?_⟩
    obtain ⟨_, _, hr⟩ := Cpp.bind_eq_ok.mp hc'
    cases hr
    exact True.intro
  | fileComponent c | kamera c | sprite c | teilSprite c | instancedTeilSpriteInstance c =>
    refine ⟨rfl, fun c' hc' => ?_⟩
    cases hc'
    exact True.intro

/-- The components of the program that resolve nothing do not depend on the singleton. -/
theorem independent : Independent Data.ResolvesNothing where
  same := by
    intro c hc st st' me
    cases c with
    | engine c => exact congrArg (Data.engine <$> ·) (afterSet_of_resolvesNothing hc _ _ _).1
    | dragMover c | buttonChecker c | objectKlicker c => rfl
  keeps := by
    intro c c' hc st me hset
    cases c with
    | engine c =>
      obtain ⟨d, hd, hset⟩ := Cpp.bind_eq_ok.mp hset
      cases hset
      exact (afterSet_of_resolvesNothing hc _ (fun _ _ => .ok []) _).2 d hd
    | dragMover c | buttonChecker c | objectKlicker c =>
      cases hset
      exact True.intro

/-- Calls that look nothing up in the singleton give the same results and leave the same storage whatever objects the
singleton holds, and leave the singleton as it is. -/
theorem second_storrage_isolated (own singleton : ObjectStorrage Data) (world : World) (cs : List (StorrageCall Class))
    (h : Storrages.LooksUpNothing Data.ResolvesNothing { own := own, singleton := singleton, world := world } cs) :
    Storrages.Isolated own world cs :=
  Storrages.isolated independent h

/-- Two new objects, the second moved under the first and written out. -/
def parentedOnce : List (StorrageCall Class) :=
  [.createGameObject, .createGameObject, .setParrent 1 0, .toString 1 0 1]

/-- None of these four calls looks anything up. -/
theorem parentedOnce_isolated : Storrages.Isolated ({} : ObjectStorrage Data) .blank parentedOnce := by
  refine second_storrage_isolated {} {} .blank parentedOnce ⟨trivial, fun t ht => ⟨trivial, fun u hu => ⟨?_, ?_⟩⟩⟩
  · cases ht
    cases hu
    intro me hme
    cases hme
    rfl
  · cases ht
    cases hu
    intro v hv
    cases hv
    refine ⟨fun me hme => ?_, fun _ _ => trivial⟩
    cases hme
    rfl

/-- Two new objects, as the singleton may hold them. -/
def pair : ObjectStorrage Data :=
  { objects := ((∅ : Std.ExtTreeMap Int32 (GameObject Data)).insertIfNew 0 { ID := 0, isActiv := false }).insertIfNew 1
      { ID := 1, isActiv := false },
    counter := 2 }

/-- To write an object with a child out is a fault or a string, as the singleton stores the id of the child or not; and an
object of another storage that is moved below one of its own enters the list of an object of the singleton. -/
theorem second_storrage_not_isolated :
    (¬Storrages.Isolated ({} : ObjectStorrage Data) .blank
      [.createGameObject, .createGameObject, .setParrent 1 0, .toString 0 0 2]) ∧
    ¬Storrages.Isolated ({} : ObjectStorrage Data) .blank [.createGameObject, .createGameObject, .setParrentID 1 0] := by
  constructor
  · intro h
    have hsame := congrArg (Except.map Prod.snd) (h.same {} pair)
    revert hsame
    decide +kernel
  · intro h
    have hchanged : (Storrages.calls { own := {}, singleton := pair, world := .blank }
        [.createGameObject, .createGameObject, .setParrentID 1 0]).map (fun t => decide (t.singleton = pair)) =
        .ok false := by decide +kernel
    cases hcalls : Storrages.calls { own := {}, singleton := pair, world := .blank }
        [.createGameObject, .createGameObject, .setParrentID 1 0] with
    | error e =>
      rw [hcalls] at hchanged
      cases hchanged
    | ok t =>
      rw [hcalls] at hchanged
      exact of_decide_eq_false (Except.ok.inj hchanged) (h.unchanged pair t hcalls)

end SceenViewer
