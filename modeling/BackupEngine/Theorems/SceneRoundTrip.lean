import BackupEngine.Lemmas.Components

/-!
# Scenes are saved and loaded

A storage of any objects with components of the registered classes is pushed above whatever the body held, and a load of
that body into an empty storage gives it back, up to the members no class saves, and the body as it was.
-/

namespace Engine

open Cpp Serializer

/-- The scene comes back. `serialize` puts it above the old body. Popping the name and calling `set` on an empty storage, also
on the body read back from the file it was written to, returns a storage with the same saved members and leaves the old body. -/
def RoundTrips (st : ObjectStorrage Data) (B : SerializedObject) (w : World) : Prop :=
  ∃ body, st.serialize (B, w) = .ok ((), body, w) ∧ B <+: body ∧
    (∀ c w', ∃ st' w'', ObjectStorrage.load { objects := ∅, counter := c } (body, w') =
        .ok ((chars "class ObjectStorrage", st'), B, w'') ∧ st'.saved Data.saved = st.saved Data.saved) ∧
    ∀ path d, d.opens path = true →
      ∃ d', writeToFile body path d = .ok d' ∧ readSerializedObjectFromFile path d' = body

/-- A scene comes back exactly when no object is stored under the largest `int`: `set` computes the id that follows the one of
each object. -/
theorem scene_round_trip_iff (st : ObjectStorrage Data) (hkey : st.Keyed) (heven : st.All Data.Even) (B : SerializedObject)
    (hsize : (B ++ encodeStorrage Data.encode st).length < 2 ^ 31) (w : World) :
    RoundTrips st B w ↔ st.getById 2147483647 = none := by
  have hserialize := ObjectStorrage.serialize_writes saves heven B w hsize
  rw [← ObjectStorrage.countable_iff]
  constructor
  · rintro ⟨body, hsave, _, hload, _⟩
    rw [hserialize] at hsave
    cases hsave
    obtain ⟨st', w', hset, _⟩ := hload 0 .blank
    exact ObjectStorrage.countable_of_load saves heven hkey hsize hset
  · intro hcount
    refine ⟨B ++ encodeStorrage Data.encode st, hserialize, List.prefix_append _ _, ?_, ?_⟩
    · intro c w'
      obtain ⟨⟨name, st'⟩, w'', hload, hname, hsaved, _⟩ := ObjectStorrage.load_reads saves heven hkey hcount c B w' hsize
      simp only at hname hsaved
      subst hname
      exact ⟨st', w'', hload, hsaved⟩
    · intro path d hopen
      exact readSerializedObjectFromFile_writeToFile hopen hsize

/-- An object with a transform and a renderer with one button. -/
def rendererObject : GameObject Data where
  ID := 3
  parrentID := 7
  childrenIds := [5, 5, -1]
  isActiv := true
  name := chars "cam"
  componenten :=
    [{ addr := 1, isActiv := true, data := .transform (Transform.new (World.blank.memory 1)) },
      { addr := 2, isActiv := false, data := .drawableRenderer
          { currentCamera := none, currentCameraID := 3, buttons := [8], buttonGameObjectIDs := [6] } }]

/-- The scene of this object, above a body of one byte. -/
theorem scene_round_trip_renderer :
    ∃ body st' w', (ObjectStorrage.addOnId {} 3 rendererObject).serialize ([42], .blank) = .ok ((), body, .blank) ∧
      ObjectStorrage.load {} (body, .blank) = .ok ((chars "class ObjectStorrage", st'), [42], w') ∧
      st'.saved Data.saved 3 = some (rendererObject.saved Data.saved) := by
  have hget : ∀ k g, (ObjectStorrage.addOnId {} 3 rendererObject).getById k = some g → 3 = k ∧ rendererObject = g := by
    intro k g h
    rw [ObjectStorrage.getById_addOnId _ _ (by decide)] at h
    split at h
    · exact ⟨by assumption, Option.some_inj.mp h⟩
    · simp [ObjectStorrage.getById] at h
  have hkey : (ObjectStorrage.addOnId {} 3 rendererObject).Keyed := by
    intro k g h
    obtain ⟨rfl, rfl⟩ := hget k g h
    rfl
  have heven : (ObjectStorrage.addOnId {} 3 rendererObject).All Data.Even := by
    intro k g h
    obtain ⟨rfl, rfl⟩ := hget k g h
    simp [rendererObject, Data.Even]
  obtain ⟨body, hbody, _, hload, _⟩ := (scene_round_trip_iff _ hkey heven [42] (by decide +kernel) .blank).mpr
    (by rw [ObjectStorrage.getById_addOnId _ _ (by decide), if_neg (by decide)]; rfl)
  obtain ⟨st', w', hset, hsaved⟩ := hload 0 .blank
  refine ⟨body, st', w', hbody, hset, ?_⟩
  rw [hsaved, ObjectStorrage.saved, ObjectStorrage.getById_addOnId _ _ (by decide), if_pos rfl, Option.map_some]

/-- An object under the largest `int`, where `setID` and `addOnId` can put it. -/
def lastScene : ObjectStorrage Data := ObjectStorrage.addOnId {} 2147483647 { ID := 2147483647, isActiv := true }

/-- It is saved, and the load overflows at the counter. -/
theorem last_id_overflows :
    ∃ body, lastScene.Keyed ∧ lastScene.All Data.Even ∧ lastScene.serialize ([], .blank) = .ok ((), body, .blank) ∧
      (∀ w', ({} : ObjectStorrage Data).load (body, w') = .error .overflow) ∧ ¬RoundTrips lastScene [] .blank := by
  have hget : ∀ k g, lastScene.getById k = some g → 2147483647 = k ∧ { ID := 2147483647, isActiv := true } = g := by
    intro k g h
    rw [lastScene, ObjectStorrage.getById_addOnId _ _ (by decide)] at h
    split at h
    · exact ⟨by assumption, Option.some_inj.mp h⟩
    · simp [ObjectStorrage.getById] at h
  have hlast : lastScene.getById 2147483647 = some { ID := 2147483647, isActiv := true } := by
    rw [lastScene, ObjectStorrage.getById_addOnId _ _ (by decide), if_pos rfl]
  have hkey : lastScene.Keyed := by
    intro k g h
    obtain ⟨rfl, rfl⟩ := hget k g h
    rfl
  have heven : lastScene.All Data.Even := by
    intro k g h c hc
    obtain ⟨_, rfl⟩ := hget k g h
    exact absurd hc List.not_mem_nil
  have hsize : ([] ++ encodeStorrage Data.encode lastScene).length < 2 ^ 31 := by decide +kernel
  refine ⟨_, hkey, heven, ObjectStorrage.serialize_writes saves heven [] .blank hsize,
    fun w' => ObjectStorrage.load_overflows saves heven hkey hlast {} [] w' hsize, fun hback => ?_⟩
  obtain ⟨body, hsave, _, hload, _⟩ := hback
  rw [ObjectStorrage.serialize_writes saves heven [] .blank hsize] at hsave
  cases hsave
  obtain ⟨st', w', hset, _⟩ := hload 0 .blank
  rw [ObjectStorrage.load_overflows saves heven hkey hlast _ [] .blank hsize] at hset
  cases hset

end Engine
