import BackupEngine.Engine.Components
import BackupEngine.Lemmas.BareScenes

/-!
# Saving and loading components

Every registered class reads back, in `set`, what it pushed in `serialize`: `saves` puts the classes together.
-/

namespace Engine

open Cpp Serializer ByteStack

/-- The members of a component that are saved; the others as a new object of its class might have them. -/
def Data.saved : Data → Data
  | .fileComponent c => .fileComponent c
  | .transform c => .transform { c with dirty := true, parrent := none }
  | .kamera c => .kamera { c with transform := none, projectionDirty := true }
  | .button c => .button { c with transform := none, up := false, down := false, payload := [] }
  | .drawableRenderer c => .drawableRenderer { c with currentCamera := none, buttons := [], allDrawable := [] }
  | .sprite c => .sprite { c with transform := none }
  | .teilSprite c => .teilSprite { c with transform := none }
  | .instancedSprite c => .instancedSprite { c with instancen := [] }
  | .instancedTeilSprite c => .instancedTeilSprite { c with instancen := [] }
  | .instancedTeilSpriteInstance c => .instancedTeilSpriteInstance { c with transform := none }
  | .stringRenderer c => .stringRenderer { c with instancen := [] }
  | .stringRendererInstance c => .stringRendererInstance { c with transform := none }

/-- A DrawableRenderer has as many buttons as ids of their game objects. -/
def Data.Even : Data → Prop
  | .drawableRenderer c => c.buttons.length = c.buttonGameObjectIDs.length
  | _ => True

/-! ## The bytes of each class -/

def FileComponent.encode (c : FileComponent) : List UInt8 := encodeAll toBytes c.toPutInFile ++ encodeString c.filePath

def Transform.encode (c : Transform) : List UInt8 :=
  toBytes c.position ++ toBytes c.rotation ++ toBytes c.scale ++ toBytes c.pGOID

def Kamera.encode (c : Kamera) : List UInt8 :=
  toBytes c.screenWidth ++ toBytes c.screenHeigth ++ toBytes c.maxViewDist ++ toBytes c.minViewDist ++ toBytes c.orthogonal

def Button.encode (c : Button) : List UInt8 := encodeAll toBytes c.payloadIDs

def DrawableRenderer.encode (c : DrawableRenderer) : List UInt8 :=
  toBytes c.currentCameraID ++ toBytes c.colorFormat ++ toBytes c.refreshRateN ++ toBytes c.refreshRateD ++
    toBytes c.windowed ++ toBytes c.backgroundColor.1 ++ toBytes c.backgroundColor.2.1 ++
    toBytes c.backgroundColor.2.2.1 ++ toBytes c.backgroundColor.2.2.2 ++ encodeAll toBytes c.buttonGameObjectIDs ++
    encodeAll toBytes c.allDrawableIDs

def Sprite.encode (c : Sprite) : List UInt8 := encodeString c.texturePath ++ encodeString c.shaderPath

def TeilSprite.encode (c : TeilSprite) : List UInt8 :=
  encodeString c.texturePath ++ encodeString c.shaderPath ++ toBytes c.spriteRect.1 ++ toBytes c.spriteRect.2.1 ++
    toBytes c.spriteRect.2.2.1 ++ toBytes c.spriteRect.2.2.2

def InstancedSprite.encode (c : InstancedSprite) : List UInt8 :=
  encodeString c.texturePath ++ encodeString c.shaderPath ++ encodeAll toBytes c.instancenID

def InstancedTeilSprite.encode (c : InstancedTeilSprite) : List UInt8 :=
  encodeString c.texturePath ++ encodeString c.shaderPath ++ encodeAll toBytes c.instancenIDs

def InstancedTeilSprite.Instance.encode (c : InstancedTeilSprite.Instance) : List UInt8 := toBytes c.rect

def StringRenderer.encode (c : StringRenderer) : List UInt8 :=
  encodeString c.texturePath ++ encodeString c.shaderPath ++ toBytes c.tabSize ++ toBytes c.endLineSize ++
    toBytes c.charSizeMultiplier ++ encodeAll toBytes c.instancenIDs ++ c.alphabetRects.toList.reverse.flatMap toBytes

def StringRenderer.Instance.encode (c : StringRenderer.Instance) : List UInt8 := encodeString c.string

/-- The bytes of a component below the name of its class. -/
def Data.encode : Data → List UInt8
  | .fileComponent c => c.encode
  | .transform c => c.encode
  | .kamera c => c.encode
  | .button c => c.encode
  | .drawableRenderer c => c.encode
  | .sprite c => c.encode
  | .teilSprite c => c.encode
  | .instancedSprite c => c.encode
  | .instancedTeilSprite c => c.encode
  | .instancedTeilSpriteInstance c => c.encode
  | .stringRenderer c => c.encode
  | .stringRendererInstance c => c.encode

/-! ## Writing -/

/-- The two numbers of a pair, the first of them first. -/
theorem writePair_writes (p : Int32 × Int32) : Writes (2 ^ 31) (writePair p) (toBytes p) :=
  Writes.bind (write_writes p.1) (write_writes p.2)

/-- A value has a byte at least, so that a vector has no more elements than bytes. -/
theorem toBytes_pos {α : Type} [StandardLayout α] (a : α) : 0 < (toBytes a).length := by
  rw [StandardLayout.length_toBytes]
  exact StandardLayout.sizeof_pos

/-- The vectors of values and pairs. -/
theorem writeValues_writes {α : Type} [StandardLayout α] (xs : List α) :
    Writes (2 ^ 31) (writeAll write xs) (encodeAll toBytes xs) :=
  writeAll_writes toBytes_pos fun a _ => write_writes a

/-- A vector of pairs. -/
theorem writePairs_writes (ps : List (Int32 × Int32)) : Writes (2 ^ 31) (writeAll writePair ps) (encodeAll toBytes ps) :=
  writeAll_writes toBytes_pos fun p _ => writePair_writes p

/-- The content of the file, its path and the tag. -/
theorem FileComponent.serialize_writes (c : FileComponent) :
    Writes (2 ^ 31) c.serialize (c.encode ++ encodeString Class.fileComponent.typeName) := by
  simp only [FileComponent.encode, List.append_assoc]
  exact (writeValues_writes _).bind ((writeString_writes _).bind (writeCString_writes _))

/-- Position, rotation, scale, the id of the parent and the tag. -/
theorem Transform.serialize_writes (c : Transform) :
    Writes (2 ^ 31) c.serialize (c.encode ++ encodeString Class.transform.typeName) := by
  simp only [Transform.encode, List.append_assoc]
  exact (write_writes _).bind ((write_writes _).bind ((write_writes _).bind ((write_writes _).bind (writeCString_writes _))))

/-- The size of the screen, the range of the view, whether it is orthogonal, and the tag. -/
theorem Kamera.serialize_writes (c : Kamera) :
    Writes (2 ^ 31) c.serialize (c.encode ++ encodeString Class.kamera.typeName) := by
  simp only [Kamera.encode, List.append_assoc]
  refine (write_writes _).bind ((write_writes _).bind ((write_writes _).bind ?_))
  exact (write_writes _).bind ((write_writes _).bind (writeCString_writes _))

/-- The pairs that lead to the actors and the tag. -/
theorem Button.serialize_writes (c : Button) :
    Writes (2 ^ 31) c.serialize (c.encode ++ encodeString Class.button.typeName) :=
  (writePairs_writes _).bind (writeCString_writes _)

/-- The loop over the ids of the buttons counts the buttons, so that both must be equally many. -/
theorem DrawableRenderer.serialize_writes (c : DrawableRenderer) (h : c.buttons.length = c.buttonGameObjectIDs.length) :
    Writes (2 ^ 31) c.serialize (c.encode ++ encodeString Class.drawableRenderer.typeName) := by
  simp only [DrawableRenderer.encode, List.append_assoc]
  refine (write_writes _).bind ((write_writes _).bind ((write_writes _).bind ?_))
  refine (write_writes _).bind ((write_writes _).bind ((write_writes _).bind ?_))
  refine (write_writes _).bind ((write_writes _).bind ((write_writes _).bind ?_))
  rw [h, encodeAll, List.append_assoc]
  refine writes_of_lt fun hL => ?_
  have hlen : c.buttonGameObjectIDs.length < 2 ^ 31 := by
    have := length_le_flatMap (toBytes_pos (α := Int32)) c.buttonGameObjectIDs
    rw [List.length_append] at hL
    omega
  refine (forDown_writes (fun ID _ => write_writes ID) hlen fun i hi => ?_).bind ?_
  · have helem : elemAt c.buttonGameObjectIDs i = .ok c.buttonGameObjectIDs[i] :=
      elemAt_eq_ok.mpr (List.getElem?_eq_getElem hi)
    rw [helem, lift_ok_bind]
  · exact (write_writes _).bind ((writePairs_writes _).bind (writeCString_writes _))

/-- The two paths and the tag. -/
theorem Sprite.serialize_writes (c : Sprite) :
    Writes (2 ^ 31) c.serialize (c.encode ++ encodeString Class.sprite.typeName) := by
  simp only [Sprite.encode, List.append_assoc]
  exact (writeString_writes _).bind ((writeString_writes _).bind (writeCString_writes _))

/-- The two paths, the rectangle side by side and the tag. -/
theorem TeilSprite.serialize_writes (c : TeilSprite) :
    Writes (2 ^ 31) c.serialize (c.encode ++ encodeString Class.teilSprite.typeName) := by
  simp only [TeilSprite.encode, List.append_assoc]
  refine (writeString_writes _).bind ((writeString_writes _).bind ((write_writes _).bind ?_))
  exact (write_writes _).bind ((write_writes _).bind ((write_writes _).bind (writeCString_writes _)))

/-- The two paths, the ids of the instances and the tag. -/
theorem InstancedSprite.serialize_writes (c : InstancedSprite) :
    Writes (2 ^ 31) c.serialize (c.encode ++ encodeString Class.instancedSprite.typeName) := by
  simp only [InstancedSprite.encode, List.append_assoc]
  exact (writeString_writes _).bind ((writeString_writes _).bind ((writeValues_writes _).bind (writeCString_writes _)))

/-- The two paths, the pairs that lead to the instances and the tag. -/
theorem InstancedTeilSprite.serialize_writes (c : InstancedTeilSprite) :
    Writes (2 ^ 31) c.serialize (c.encode ++ encodeString Class.instancedTeilSprite.typeName) := by
  simp only [InstancedTeilSprite.encode, List.append_assoc]
  exact (writeString_writes _).bind ((writeString_writes _).bind ((writePairs_writes _).bind (writeCString_writes _)))

/-- The rectangle and the tag. -/
theorem InstancedTeilSprite.Instance.serialize_writes (c : InstancedTeilSprite.Instance) :
    Writes (2 ^ 31) c.serialize (c.encode ++ encodeString Class.instancedTeilSpriteInstance.typeName) :=
  (write_writes _).bind (writeCString_writes _)

/-- The rectangles of the alphabet are pushed last, from the end of the array to its start. -/
theorem StringRenderer.serialize_writes (c : StringRenderer) :
    Writes (2 ^ 31) c.serialize (c.encode ++ encodeString Class.stringRenderer.typeName) := by
  have hrects : c.alphabetRects.toList.reverse.flatMap toBytes =
      (List.finRange 256).reverse.flatMap fun i => toBytes (c.alphabetRects.get i) := by
    have hlist : c.alphabetRects.toList = (List.finRange 256).map c.alphabetRects.get := by
      apply List.ext_getElem (by simp)
      intro i h₁ h₂
      simp [Vector.get]
    rw [hlist, ← List.map_reverse, List.flatMap_map]
  simp only [StringRenderer.encode, hrects, List.append_assoc]
  refine (writeString_writes _).bind ((writeString_writes _).bind ((write_writes _).bind ?_))
  refine (write_writes _).bind ((write_writes _).bind ((writePairs_writes _).bind ?_))
  exact (Writes.forM fun i _ => write_writes _).bind (writeCString_writes _)

/-- The string and the tag. -/
theorem StringRenderer.Instance.serialize_writes (c : StringRenderer.Instance) :
    Writes (2 ^ 31) c.serialize (c.encode ++ encodeString Class.stringRendererInstance.typeName) :=
  (writeString_writes _).bind (writeCString_writes _)

/-- Every class writes its members and its tag. -/
theorem Data.serialize_writes (c : Data) (h : c.Even) :
    Writes (2 ^ 31) c.serialize (c.encode ++ encodeString c.classOf.typeName) := by
  cases c with
  | fileComponent c => exact c.serialize_writes
  | transform c => exact c.serialize_writes
  | kamera c => exact c.serialize_writes
  | button c => exact c.serialize_writes
  | drawableRenderer c => exact c.serialize_writes h
  | sprite c => exact c.serialize_writes
  | teilSprite c => exact c.serialize_writes
  | instancedSprite c => exact c.serialize_writes
  | instancedTeilSprite c => exact c.serialize_writes
  | instancedTeilSpriteInstance c => exact c.serialize_writes
  | stringRenderer c => exact c.serialize_writes
  | stringRendererInstance c => exact c.serialize_writes

/-! ## Reading -/

/-- The pair is popped from its second number on. -/
theorem readPair_reads (p : Int32 × Int32) : Reads (2 ^ 31) readPair (· = p) (toBytes p) :=
  (read_reads p.2).bind_eq ((read_reads p.1).last fun _ h => Reads.pure (by rw [h]))

/-- A vector of values comes back. -/
theorem readValues_reads {α : Type} [StandardLayout α] (xs : List α) :
    Reads (2 ^ 31) (readAll (read α) []) (· = xs) (encodeAll toBytes xs) :=
  readAll_reads_eq toBytes_pos read_reads xs

/-- A vector of pairs comes back. -/
theorem readPairs_reads (ps : List (Int32 × Int32)) : Reads (2 ^ 31) (readAll readPair []) (· = ps) (encodeAll toBytes ps) :=
  readAll_reads_eq toBytes_pos readPair_reads ps

/-- Writing the file never fails on a content that came out of a body below the limit. -/
theorem createFileWith_reads {path content : List UInt8} (h : content.length < 2 ^ 31) :
    Reads (2 ^ 31) (outside fun w => do
      let disk ← createFileWith (cStr path) content w.disk
      return (({ toPutInFile := content, filePath := path } : FileComponent), { w with disk }))
      (· = { toPutInFile := content, filePath := path }) [] := by
  intro B w _
  rw [List.append_nil]
  have hint : int (content.length : Int) = .ok (content.length : Int) := int_of_inInt ⟨by omega, by omega⟩
  rw [outside, createFileWith, putFile, hint]
  split
  · exact ⟨_, _, rfl, rfl⟩
  · exact ⟨_, _, rfl, rfl⟩

/-- Path and content come back, and the file is written. -/
theorem FileComponent.set_reads (c : FileComponent) : Reads (2 ^ 31) (FileComponent.set {}) (· = c) c.encode := by
  refine reads_of_lt fun hL => ?_
  have hlen : c.toPutInFile.length < 2 ^ 31 := by
    have := length_le_encodeAll (toBytes_pos (α := UInt8)) c.toPutInFile
    rw [FileComponent.encode, List.length_append] at hL
    omega
  refine (readString_reads _).bind_eq ?_
  refine (readValues_reads c.toPutInFile).last fun content hcontent => ?_
  rw [hcontent]
  exact createFileWith_reads hlen

/-- The matrix is to be computed again, and the parent is resolved later. -/
theorem Transform.set_reads (s : Storage) (c : Transform) :
    Reads (2 ^ 31) (Transform.new s).set (· = { c with dirty := true, parrent := none }) c.encode := by
  refine (read_reads _).bind_eq ((read_reads _).bind_eq ((read_reads _).bind_eq ((read_reads _).last ?_)))
  rintro _ rfl
  exact Reads.pure rfl

/-- The pointer to the transform is what the storage holds in the place of the member. -/
theorem Kamera.set_reads (s : Storage) (c : Kamera) :
    Reads (2 ^ 31) (Kamera.new s).set (· = { c with transform := s.pointer 2, projectionDirty := true }) c.encode := by
  refine (read_reads _).bind_eq ((read_reads _).bind_eq ((read_reads _).bind_eq ?_))
  refine (read_reads _).bind_eq ((read_reads _).last ?_)
  rintro _ rfl
  exact Reads.pure rfl

/-- The actors are resolved later, and the flags are as the constructor leaves them. -/
theorem Button.set_reads (s : Storage) (c : Button) :
    Reads (2 ^ 31) (Button.new s).set (· = { Button.new s with payloadIDs := c.payloadIDs }) c.encode := by
  refine (readPairs_reads _).last ?_
  rintro _ rfl
  exact Reads.pure rfl

/-- The ids and the settings come back; buttons and drawables are resolved later. -/
theorem DrawableRenderer.set_reads (s : Storage) (c : DrawableRenderer) :
    Reads (2 ^ 31) (DrawableRenderer.new s).set
      (· = { c with currentCamera := s.pointer 10, buttons := [], allDrawable := [] }) c.encode := by
  refine (readPairs_reads _).bind_eq ((readValues_reads _).bind_eq ((read_reads _).bind_eq ?_))
  refine (read_reads _).bind_eq ((read_reads _).bind_eq ((read_reads _).bind_eq ?_))
  refine (read_reads _).bind_eq ((read_reads _).bind_eq ((read_reads _).bind_eq ?_))
  refine (read_reads _).bind_eq ((read_reads _).last ?_)
  rintro _ rfl
  exact Reads.pure rfl

/-- The two paths come back. -/
theorem Sprite.set_reads (c : Sprite) : Reads (2 ^ 31) (Sprite.set {}) (· = { c with transform := none }) c.encode := by
  refine (readString_reads _).bind_eq ((readString_reads _).last ?_)
  rintro _ rfl
  exact Reads.pure rfl

/-- The rectangle and the two paths come back. -/
theorem TeilSprite.set_reads (s : Storage) (c : TeilSprite) :
    Reads (2 ^ 31) (TeilSprite.new s).set (· = { c with transform := s.pointer 2 }) c.encode := by
  refine (read_reads _).bind_eq ((read_reads _).bind_eq ((read_reads _).bind_eq ((read_reads _).bind_eq ?_)))
  refine (readString_reads _).bind_eq ((readString_reads _).last ?_)
  rintro _ rfl
  exact Reads.pure rfl

/-- The ids of the instances and the two paths come back. -/
theorem InstancedSprite.set_reads (c : InstancedSprite) :
    Reads (2 ^ 31) (InstancedSprite.set {}) (· = { c with instancen := [] }) c.encode := by
  refine (readValues_reads _).bind_eq ((readString_reads _).bind_eq ((readString_reads _).last ?_))
  rintro _ rfl
  exact Reads.pure rfl

/-- The pairs that lead to the instances and the two paths come back. -/
theorem InstancedTeilSprite.set_reads (c : InstancedTeilSprite) :
    Reads (2 ^ 31) (InstancedTeilSprite.set {}) (· = { c with instancen := [] }) c.encode := by
  refine (readPairs_reads _).bind_eq ((readString_reads _).bind_eq ((readString_reads _).last ?_))
  rintro _ rfl
  exact Reads.pure rfl

/-- The rectangle comes back. -/
theorem InstancedTeilSprite.Instance.set_reads (s : Storage) (c : InstancedTeilSprite.Instance) :
    Reads (2 ^ 31) (InstancedTeilSprite.Instance.new s).set (· = { c with transform := s.pointer 2 }) c.encode := by
  refine (read_reads _).last ?_
  rintro _ rfl
  exact Reads.pure rfl

/-- The rectangles are read from the first to the last; the accumulator agrees with them on those read so far. -/
theorem StringRenderer.setAlphabetRects_reads (rects rects₀ : Vector Float6 256) :
    Reads (2 ^ 31) (setAlphabetRects rects₀) (· = rects) (rects.toList.reverse.flatMap toBytes) := by
  let next : Nat × Vector Float6 256 → Ser (Nat × Vector Float6 256) := fun c => do
    let r ← read Float6
    return (c.1 + 1, c.2.setIfInBounds c.1 r)
  let agree : List Float6 → Nat × Vector Float6 256 → Prop := fun pre c =>
    c.1 = pre.length ∧ ∀ i (hi : i < 256), i < pre.length → pre[i]? = some c.2[i]
  have hloop : Reads (2 ^ 31) (ByteStack.loop rects.toList.length next (0, rects₀)) (agree rects.toList)
      (rects.toList.reverse.flatMap toBytes) := by
    refine Reads.loop rects.toList agree ?_ ⟨rfl, fun i _ hi => absurd hi (Nat.not_lt_zero i)⟩
    rintro pre r ⟨n, rects'⟩ hpre ⟨rfl, h⟩
    refine (read_reads r).last ?_
    rintro _ rfl
    refine Reads.pure ⟨by simp, fun i hi hlt => ?_⟩
    rw [List.length_append, List.length_singleton] at hlt
    rw [Vector.getElem_setIfInBounds]
    by_cases hlast : pre.length = i
    · simp [hlast]
    · rw [if_neg hlast, List.getElem?_append_left (by omega)]
      exact h i hi (by omega)
  rw [Vector.length_toList] at hloop
  refine hloop.last ?_
  rintro ⟨n, rects'⟩ ⟨_, h⟩
  refine Reads.pure (Vector.ext fun i hi => ?_)
  have hget := h i hi (by rwa [Vector.length_toList])
  rw [List.getElem?_eq_getElem (by simpa using hi), Vector.getElem_toList] at hget
  exact (Option.some_inj.mp hget).symm

/-- What was pushed last is popped first: the alphabet comes back before the members below it. -/
theorem StringRenderer.set_reads (s : Storage) (c : StringRenderer) :
    Reads (2 ^ 31) (StringRenderer.new s).set (· = { c with instancen := [] }) c.encode := by
  refine (setAlphabetRects_reads c.alphabetRects _).bind_eq ((readPairs_reads _).bind_eq ((read_reads _).bind_eq ?_))
  refine (read_reads _).bind_eq ((read_reads _).bind_eq ((readString_reads _).bind_eq ((readString_reads _).last ?_)))
  rintro _ rfl
  exact Reads.pure rfl

/-- The string comes back. -/
theorem StringRenderer.Instance.set_reads (s : Storage) (c : StringRenderer.Instance) :
    Reads (2 ^ 31) (StringRenderer.Instance.new s).set (· = { c with transform := s.pointer 2 }) c.encode := by
  refine (readString_reads _).last ?_
  rintro _ rfl
  exact Reads.pure rfl

/-- The name of a class leads back to its constructor. -/
theorem registered_typeName {T : Class} (h : T ∈ Data.registeredClasses) : Data.registered T.typeName = Data.new T := by
  have hfind : ∀ T ∈ Data.registeredClasses,
      Data.registeredClasses.find? (fun S => S.typeName == T.typeName) = some T := by decide
  rw [Data.registered, hfind T h]
  rfl

/-- The classes of `Serializer/` and `Engine/` save their components, a DrawableRenderer if it is even. -/
theorem saves : Saves Data.saved Data.Even Data.encode where
  writes := Data.serialize_writes
  reads := by
    intro c _
    have hmem : c.classOf ∈ Data.registeredClasses := by cases c <;> simp [Data.classOf, Data.registeredClasses]
    have hnew : ∃ new, Data.new c.classOf = some new ∧
        ∀ s, Reads (2 ^ 31) (new s).set (fun c' => c'.saved = c.saved) c.encode := by
      cases c with
      | fileComponent c => exact ⟨_, rfl, fun _ => c.set_reads.map fun _ h => by rw [h]⟩
      | transform c => exact ⟨_, rfl, fun s => (c.set_reads s).map fun _ h => by rw [h]; rfl⟩
      | kamera c => exact ⟨_, rfl, fun s => (c.set_reads s).map fun _ h => by rw [h]; rfl⟩
      | button c => exact ⟨_, rfl, fun s => (c.set_reads s).map fun _ h => by rw [h]; rfl⟩
      | drawableRenderer c => exact ⟨_, rfl, fun s => (c.set_reads s).map fun _ h => by rw [h]; rfl⟩
      | sprite c => exact ⟨_, rfl, fun _ => c.set_reads.map fun _ h => by rw [h]; rfl⟩
      | teilSprite c => exact ⟨_, rfl, fun s => (c.set_reads s).map fun _ h => by rw [h]; rfl⟩
      | instancedSprite c => exact ⟨_, rfl, fun _ => c.set_reads.map fun _ h => by rw [h]; rfl⟩
      | instancedTeilSprite c => exact ⟨_, rfl, fun _ => c.set_reads.map fun _ h => by rw [h]; rfl⟩
      | instancedTeilSpriteInstance c => exact ⟨_, rfl, fun s => (c.set_reads s).map fun _ h => by rw [h]; rfl⟩
      | stringRenderer c => exact ⟨_, rfl, fun s => (c.set_reads s).map fun _ h => by rw [h]; rfl⟩
      | stringRendererInstance c => exact ⟨_, rfl, fun s => (c.set_reads s).map fun _ h => by rw [h]; rfl⟩
    obtain ⟨new, hnew, hreads⟩ := hnew
    exact ⟨new, (registered_typeName hmem).trans hnew, hreads⟩

/-! ## Reading whatever there is -/

section Keeps

variable {I : World → Prop}

/-- A value, whatever bytes there are. -/
theorem read_keeps (α : Type) [StandardLayout α] : Keeps I (2 ^ 31) (read α) := (read_shrinks α).keeps

/-- A string, whatever bytes there are. -/
theorem readString_keeps : Keeps I (2 ^ 31) readString := readString_shrinks.keeps

/-- A vector, whatever its size says. -/
theorem readAll_keeps {α : Type} {next : Ser α} (h : Keeps I (2 ^ 31) next) (xs : List α) :
    Keeps I (2 ^ 31) (readAll next xs) := (readAll_shrinks h fun _ _ => True.intro).keeps

/-- A pair, whatever bytes there are. -/
theorem readPair_keeps : Keeps I (2 ^ 31) readPair := (read_keeps _).seq fun _ => (read_keeps _).seq fun _ => Keeps.pure _

end Keeps

/-- A file is written, and the memory stays. -/
theorem FileComponent.set_keeps (memory : Addr → Storage) (c : FileComponent) :
    Keeps (fun w => w.memory = memory) (2 ^ 31) c.set := by
  refine readString_keeps.seq fun path => (readAll_keeps (read_keeps _) _).seq fun content => ?_
  refine outside_shrinks fun w a w' hw h => ?_
  obtain ⟨disk, _, hr⟩ := Cpp.bind_eq_ok.mp h
  cases hr
  exact ⟨hw, True.intro⟩

/-- The 256 rectangles, whatever bytes there are. -/
theorem StringRenderer.setAlphabetRects_keeps {I : World → Prop} (rects : Vector Float6 256) :
    Keeps I (2 ^ 31) (setAlphabetRects rects) :=
  (Keeps.loop (fun _ => (read_keeps _).seq fun _ => Keeps.pure _) 256 _).seq fun _ => Keeps.pure _

/-- No class pushes anything in `set`. -/
theorem pops : Pops Data := by
  intro memory c
  cases c with
  | fileComponent c => exact (c.set_keeps memory).map
  | transform c =>
    refine Keeps.map ((read_keeps _).seq fun _ => (read_keeps _).seq fun _ => (read_keeps _).seq fun _ => ?_)
    exact (read_keeps _).seq fun _ => Keeps.pure _
  | kamera c =>
    refine Keeps.map ((read_keeps _).seq fun _ => (read_keeps _).seq fun _ => (read_keeps _).seq fun _ => ?_)
    exact (read_keeps _).seq fun _ => (read_keeps _).seq fun _ => Keeps.pure _
  | button c => exact ((readAll_keeps readPair_keeps _).seq fun _ => Keeps.pure _).map
  | drawableRenderer c =>
    refine Keeps.map ((readAll_keeps readPair_keeps _).seq fun _ => (readAll_keeps (read_keeps _) _).seq fun _ => ?_)
    refine (read_keeps _).seq fun _ => (read_keeps _).seq fun _ => (read_keeps _).seq fun _ => ?_
    refine (read_keeps _).seq fun _ => (read_keeps _).seq fun _ => (read_keeps _).seq fun _ => ?_
    exact (read_keeps _).seq fun _ => (read_keeps _).seq fun _ => (read_keeps _).seq fun _ => Keeps.pure _
  | sprite c => exact (readString_keeps.seq fun _ => readString_keeps.seq fun _ => Keeps.pure _).map
  | teilSprite c =>
    refine Keeps.map ((read_keeps _).seq fun _ => (read_keeps _).seq fun _ => (read_keeps _).seq fun _ => ?_)
    exact (read_keeps _).seq fun _ => readString_keeps.seq fun _ => readString_keeps.seq fun _ => Keeps.pure _
  | instancedSprite c =>
    refine Keeps.map ((readAll_keeps (read_keeps _) _).seq fun _ => ?_)
    exact readString_keeps.seq fun _ => readString_keeps.seq fun _ => Keeps.pure _
  | instancedTeilSprite c =>
    refine Keeps.map ((readAll_keeps readPair_keeps _).seq fun _ => ?_)
    exact readString_keeps.seq fun _ => readString_keeps.seq fun _ => Keeps.pure _
  | instancedTeilSpriteInstance c => exact ((read_keeps _).seq fun _ => Keeps.pure _).map
  | stringRenderer c =>
    refine Keeps.map ((StringRenderer.setAlphabetRects_keeps _).seq fun _ => (readAll_keeps readPair_keeps _).seq fun _ => ?_)
    refine (read_keeps _).seq fun _ => (read_keeps _).seq fun _ => (read_keeps _).seq fun _ => ?_
    exact readString_keeps.seq fun _ => readString_keeps.seq fun _ => Keeps.pure _
  | stringRendererInstance c => exact (readString_keeps.seq fun _ => Keeps.pure _).map

end Engine
