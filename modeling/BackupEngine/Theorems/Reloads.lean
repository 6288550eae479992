import BackupEngine.Theorems.Relinking

/-!
# Scenes handed from program to program

A scene that was saved and loaded into an empty storage is saved as it was before, and can be loaded again. However often that
is done, and whatever heap and disk hold each time, the body of the next save holds the bytes of the first one.
-/

namespace SceenViewer

open Cpp Serializer Transition

/-- Programs one after another, each in a world of its own: the first one saves `st`, and each of the others loads what the one
before it saved into its empty storage, tells the components and saves them. -/
def handOn (st : ObjectStorrage Data) (laters : List World) : Comp (ObjectStorrage Data) :=
  laters.foldlM (fun st later => Scene.restore { storrageInstance := st, world := later } later) st

/-- Each program has a scene for the next one. -/
theorem Reloadable.handOn {st : ObjectStorrage Data} (h : Reloadable st) (laters : List World) :
    ∃ st', handOn st laters = .ok st' ∧ SavedAlike st st' ∧ Reloadable st' := by
  induction laters generalizing st with
  | nil => exact ⟨st, rfl, .refl st, h⟩
  | cons later laters ih =>
    have hfirst : Reloadable ({ storrageInstance := st, world := later } : Scene).storrageInstance := h
    obtain ⟨st₁, hrestore, hsame, hafter⟩ := hfirst.restore later
    obtain ⟨st', hhanded, hsame', hafter'⟩ := ih hafter
    exact ⟨st', Cpp.bind_eq_ok.mpr ⟨st₁, hrestore, hhanded⟩, hsame.trans hsame', hafter'⟩

/-- A scene that was built in a run, whose renderers have a stored camera and whose bytes a body can hold, can be handed on any
number of times. The last program saves the bytes the first one saved, and its links are those of the first scene. -/
theorem handed_on {w : World} {cs : List Call} {s : Singletons} (h : Run calls { scene := ⟨{}, w⟩ } cs s)
    (hfilmed : s.scene.storrageInstance.All (Filmed s.scene.storrageInstance)) (hsize : s.scene.image.length < 2 ^ 31)
    (laters : List World) :
    ∃ st', handOn s.scene.storrageInstance laters = .ok st' ∧ Relinked s.scene.storrageInstance st' ∧
      ∀ w', st'.serialize ([], w') = .ok ((), s.scene.image, w') := by
  have hbefore := (Sound.run h).reloadable hfilmed hsize
  obtain ⟨st', hhanded, hsame, hafter⟩ := hbefore.handOn laters
  refine ⟨st', hhanded, hsame.relinked hbefore hafter, fun w' => ?_⟩
  rw [Scene.image, ← hsame.encode]
  exact (hafter.fits.loads_onto hafter.keyed w').1

/-- The object with the button, handed on twice. -/
theorem handed_on_button :
    ∃ s st', Run calls { scene := ⟨{}, .blank⟩ } buttonCalls s ∧ handOn s.scene.storrageInstance [.blank, .blank] = .ok st' ∧
      Relinked s.scene.storrageInstance st' ∧ ∀ w', st'.serialize ([], w') = .ok ((), s.scene.image, w') := by
  obtain ⟨s, g, c, hexec, himage, hobjects, hclasses, _⟩ := exec_buttonCalls
  have hrun := Run.of_exec hexec
  have hfilmed : s.scene.storrageInstance.All (Filmed s.scene.storrageInstance) := by
    intro k o ho d hd
    rw [← ObjectStorrage.mem_toList, hobjects, List.mem_singleton] at ho
    cases ho
    exact filmed_of_class (hclasses d hd)
  obtain ⟨st', hhanded, hlinks, hbytes⟩ := handed_on hrun hfilmed himage [.blank, .blank]
  exact ⟨s, st', hrun, hhanded, hlinks, hbytes⟩

end SceenViewer
