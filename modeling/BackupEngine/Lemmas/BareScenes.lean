import BackupEngine.Lemmas.Objects

/-!
# Scenes without components

What `serialize` and `set` do with objects that hold nothing but a name and ids, whatever the size of the scene. A load that
returns has popped at least 24 bytes for every object; a `serialize` that returns has pushed the bytes of the scene unless a
list of children is too long for that.
-/

namespace Serializer

open Cpp ByteStack

variable {κ C : Type} [ComponentClasses κ C]

/-- Nothing is said of any component. -/
theorem saves_nothing : Saves (fun _ : κ => ()) (fun _ => False) (fun _ => []) where
  writes := fun _ h => h.elim
  reads := fun _ h => h.elim

/-- No object has a name or a component. -/
def ObjectStorrage.Bare (st : ObjectStorrage κ) : Prop :=
  ∀ k g, st.getById k = some g → g.name = [] ∧ g.componenten = []

/-- The bytes of a storage without components. -/
def ObjectStorrage.bareBytes (st : ObjectStorrage κ) : List UInt8 := encodeStorrage (fun _ => []) st

theorem ObjectStorrage.Bare.all {st : ObjectStorrage κ} (h : st.Bare) (P : κ → Prop) : st.All P := by
  intro k g hg c hc
  rw [(h k g hg).2] at hc
  exact absurd hc List.not_mem_nil

/-! ## What a load pops -/

/-- `set` of a component pushes nothing, and leaves alone what the storage of new objects will hold. -/
def Pops (κ : Type) {C : Type} [ComponentClasses κ C] : Prop :=
  ∀ memory, ∀ c : κ, Keeps (fun w => w.memory = memory) (2 ^ 31) (ComponentClasses.set c)

/-- What `set` returns comes from some bytes. -/
theorem Pops.returned (hpops : Pops κ) (memory : Addr → Storage) (c : κ) :
    Shrinks (fun w => w.memory = memory) (2 ^ 31) (ComponentClasses.set c) 0
      fun data => ∃ s s₁, ComponentClasses.set c s = .ok (data, s₁) := by
  intro B w data B' w' hB hw h
  obtain ⟨hlen, hw', _⟩ := hpops memory c B w data B' w' hB hw h
  exact ⟨hlen, hw', _, _, h⟩

/-- The component is what `createInstance` and `set` make of the memory a new object is put in. -/
def Made (memory : Addr → Storage) (c : Component κ) : Prop :=
  ∃ name w c₀ w₁ s s₁, w.memory = memory ∧ createInstance name w = .ok (c₀, w₁) ∧
    ComponentClasses.set c₀.data s = .ok (c.data, s₁) ∧ c.addr = c₀.addr ∧ c.isActiv = c₀.isActiv

/-- What the storage of a new component holds for `isActiv` is what a loaded component has. -/
theorem Made.isActiv {memory : Addr → Storage} {c : Component κ} (h : Made memory c) :
    c.isActiv = (memory c.addr).flag 0 := by
  obtain ⟨name, w, c₀, w₁, s, s₁, rfl, hcreate, _, haddr, hactiv⟩ := h
  unfold createInstance at hcreate
  split at hcreate
  · cases hcreate
  · cases hcreate
    rw [haddr, hactiv]

section Load

variable {memory : Addr → Storage}

theorem createInstance_shrinks {L : Nat} (name : List UInt8) :
    Shrinks (fun w => w.memory = memory) L (outside (createInstance (κ := κ) name)) 0
      fun c => ∃ w w₁, w.memory = memory ∧ createInstance name w = .ok (c, w₁) := by
  refine outside_shrinks fun w c w' hw h => ⟨?_, w, w', hw, h⟩
  unfold createInstance at h
  split at h
  · cases h
  · cases h
    exact hw

theorem GameObject.set_shrinks (hpops : Pops κ) {g : GameObject κ} (hg : g.componenten = []) :
    Shrinks (fun w => w.memory = memory) (2 ^ 31) g.set 20 fun g' => ∀ c ∈ g'.componenten, Made memory c := by
  refine Shrinks.bind (k := 4) (m := 16) (read_shrinks Int32) fun _ _ => ?_
  refine Shrinks.bind (k := 4) (m := 12) readString_shrinks fun _ _ => ?_
  refine Shrinks.bind (k := 4) (m := 8) (read_shrinks Int32) fun _ _ => ?_
  refine Shrinks.bind (k := 4) (m := 4) (readAll_shrinks (read_shrinks Int32).keeps fun _ _ => True.intro) fun _ _ => ?_
  refine Shrinks.bind (k := 4) (m := 0) (readAll_shrinks ?_ (by simp [hg])) fun cs hcs => Shrinks.pure hcs
  refine Shrinks.bind (k := 0) (m := 0) readString_shrinks.keeps fun name _ => ?_
  refine Shrinks.bind (m := 0) (createInstance_shrinks name) fun c hc => ?_
  refine (hpops.returned memory c.data).bind (m := 0) fun data hdata => Shrinks.pure ?_
  obtain ⟨w, w₁, hw, hcreate⟩ := hc
  obtain ⟨s, s₁, hset⟩ := hdata
  exact ⟨name, w, c, w₁, s, s₁, hw, hcreate, hset, rfl, rfl⟩

/-- Every component of a storage. -/
def ObjectStorrage.AllComponents (st : ObjectStorrage κ) (P : Component κ → Prop) : Prop :=
  ∀ k g, st.getById k = some g → ∀ c ∈ g.componenten, P c

theorem ObjectStorrage.AllComponents.of_empty {st : ObjectStorrage κ} {P : Component κ → Prop} (h : st.objects = ∅) :
    st.AllComponents P := by
  intro k g hg
  simp [getById, h] at hg

theorem ObjectStorrage.AllComponents.addOnId {st : ObjectStorrage κ} {P : Component κ → Prop} (h : st.AllComponents P)
    {ID : Int32} {g : GameObject κ} (hg : ∀ c ∈ g.componenten, P c) : (st.addOnId ID g).AllComponents P := by
  intro k o ho
  simp only [getById, ObjectStorrage.addOnId, Std.ExtTreeMap.getElem?_insertIfNew] at ho
  split at ho
  · cases ho
    exact hg
  · exact h k o ho

/-- A load pops 24 bytes for every object it is told of, and the loaded components are made of what the memory held. -/
theorem ObjectStorrage.forUpTo_set_shrinks (hpops : Pops κ) (n : UInt64) {st : ObjectStorrage κ}
    (hst : st.AllComponents (Made memory)) :
    Shrinks (fun w => w.memory = memory) (2 ^ 31) (forUpTo n (fun this : ObjectStorrage κ => do
        let temp ← outside fun w => .ok (GameObject.new w)
        let _ ← readString
        let temp ← temp.set
        let this := this.addOnId temp.ID temp
        let next ← lift (int (temp.ID.toInt + 1))
        return { this with counter := max this.counter next }) st)
      (min n.toNat (2 ^ 31) * 24) fun st' => st'.AllComponents (Made memory) := by
  refine forUpTo_shrinks (fun this hthis => ?_) n hst
  refine Shrinks.bind (k := 0) (m := 24) (Q := fun g => g.componenten = []) (outside_shrinks fun w g w' hw h => ?_)
    fun temp htemp => ?_
  · cases h
    exact ⟨hw, rfl⟩
  refine Shrinks.bind (k := 4) (m := 20) readString_shrinks fun _ _ => ?_
  refine (GameObject.set_shrinks hpops htemp).bind (m := 0) fun g hg => ?_
  exact (lift_keeps _).bind (m := 0) fun _ _ => Shrinks.pure (hthis.addOnId hg)

end Load

namespace ObjectStorrage

/-- A load that returns has popped 24 bytes for every object it was told of. -/
theorem set_ok (hpops : Pops κ) {st st' : ObjectStorrage κ} (hst : st.objects = ∅) {B rest : List UInt8} {n : UInt64}
    {w w' : World}
    (hlen : (B ++ toBytes n).length < 2 ^ 31) (h : st.set (B ++ toBytes n, w) = .ok (st', rest, w')) :
    min n.toNat (2 ^ 31) * 24 < 2 ^ 31 := by
  obtain ⟨size, ⟨B₁, w₁⟩, hsize, h⟩ := ByteStack.bind_eq_ok.mp h
  obtain ⟨a, w₂, hread, ha⟩ := read_reads n B w hlen
  rw [hread, ha] at hsize
  cases hsize
  have hB : B.length < 2 ^ 31 := by
    rw [List.length_append] at hlen
    omega
  have := (forUpTo_set_shrinks hpops _ (AllComponents.of_empty hst) B _ _ _ _ hB rfl h).1
  omega

/-! ## What a save has pushed -/

theorem serialize_forM_length {gs : List (Int32 × GameObject κ)} {B : List UInt8} {w : World} {r : Unit × List UInt8 × World}
    (hB : B.length < 2 ^ 31 + 4) (h : (gs.forM fun it => it.2.serialize : Ser Unit) (B, w) = .ok r) :
    r.2.1.length < 2 ^ 31 + 4 := by
  induction gs generalizing B w with
  | nil =>
    cases h
    exact hB
  | cons g gs ih =>
    obtain ⟨_, ⟨B₁, w₁⟩, hg, h⟩ := ByteStack.bind_eq_ok.mp h
    refine ih ?_ h
    simp only [GameObject.serialize] at hg
    obtain ⟨_, _, _, hg⟩ := ByteStack.bind_eq_ok.mp hg
    obtain ⟨_, _, _, hg⟩ := ByteStack.bind_eq_ok.mp hg
    obtain ⟨_, _, _, hg⟩ := ByteStack.bind_eq_ok.mp hg
    obtain ⟨_, _, _, hg⟩ := ByteStack.bind_eq_ok.mp hg
    obtain ⟨_, ⟨B₂, w₂⟩, _, hg⟩ := ByteStack.bind_eq_ok.mp hg
    obtain ⟨body, hbody, hr⟩ := Cpp.bind_eq_ok.mp hg
    cases hr
    exact pushChars_length hbody

/-- Whatever the objects are, their number and the name of the class end up on top. -/
theorem serialize_ok {st : ObjectStorrage κ} {image : List UInt8} {w w' : World}
    (h : st.serialize ([], w) = .ok ((), image, w')) :
    ∃ B, image = B ++ toBytes (UInt64.ofNat st.objects.size) ++ encodeString (chars "class ObjectStorrage") ∧
      image.length < 2 ^ 31 + 4 := by
  obtain ⟨_, ⟨B, w₁⟩, hobjects, h⟩ := ByteStack.bind_eq_ok.mp h
  have hB : B.length < 2 ^ 31 + 4 := serialize_forM_length (by simp) hobjects
  have htail : Commits (2 ^ 31 + 4) (2 ^ 31 + 4) (do
      write (UInt64.ofNat st.objects.size)
      writeCString (chars "class ObjectStorrage"))
      (toBytes (UInt64.ofNat st.objects.size) ++ encodeString (chars "class ObjectStorrage")) := by
    refine Commits.bind ((write_writes_max _).commits (M := 2 ^ 32) ?_ (by decide)) ?_
    · rw [StandardLayout.length_toBytes]
      decide
    · exact writeCString_commits (Nat.le_refl _) (by decide)
  obtain ⟨hr, hlen⟩ := htail B w₁ _ hB h
  rw [Prod.mk.injEq, Prod.mk.injEq] at hr
  refine ⟨B, ?_, ?_⟩
  · rw [hr.2.1, List.append_assoc]
  · rw [hr.2.1]
    exact hlen

/-- A save and a load of what it pushed can only both return for less than `2^31 / 24` objects. -/
theorem size_of_load (hpops : Pops κ) {st st₀ st' : ObjectStorrage κ} {image rest name : List UInt8} {w w₁ w₂ w₃ : World}
    (hsize : st.objects.size ≤ 2 ^ 31) (hempty : st₀.objects = ∅) (hsave : st.serialize ([], w) = .ok ((), image, w₁))
    (hload : st₀.load (image, w₂) = .ok ((name, st'), rest, w₃)) :
    image.length < 2 ^ 31 ∧ st.objects.size * 24 < 2 ^ 31 := by
  obtain ⟨B, himage, hlen⟩ := serialize_ok hsave
  obtain ⟨name', ⟨B₁, w₄⟩, hname, h⟩ := ByteStack.bind_eq_ok.mp hload
  obtain ⟨st'', ⟨B₂, w₅⟩, hset, _⟩ := ByteStack.bind_eq_ok.mp h
  obtain ⟨⟨data, body⟩, hpop, hr⟩ := Cpp.bind_eq_ok.mp hname
  have hlt := (popString_ok (by omega) hpop).1
  refine ⟨hlt, ?_⟩
  rw [himage] at hlt hname
  obtain ⟨_, w₆, hread, _⟩ := readString_reads (chars "class ObjectStorrage") (B ++ toBytes (UInt64.ofNat st.objects.size)) w₂ hlt
  rw [hread] at hname
  cases hname
  have hB : (B ++ toBytes (UInt64.ofNat st.objects.size)).length < 2 ^ 31 := by
    rw [List.length_append] at hlt
    omega
  have := set_ok hpops hempty hB hset
  rw [UInt64.toNat_ofNat_of_lt' (Nat.lt_of_le_of_lt hsize (by decide))] at this
  omega

end ObjectStorrage

/-- The bytes of a vector of values. -/
theorem length_encodeAll_values {α : Type} [StandardLayout α] (xs : List α) :
    (encodeAll toBytes xs).length = xs.length * sizeof α + 4 := by
  rw [encodeAll, List.length_append, length_flatMap_const fun x _ => StandardLayout.length_toBytes x, List.length_reverse,
    StandardLayout.length_toBytes, sizeof_int32, Nat.mul_comm]

/-- The object with the name it is saved under: the length of a name is kept as an `int`. -/
def GameObject.cut (g : GameObject κ) : GameObject κ := { g with name := g.name.take (g.name.length % 2 ^ 32) }

/-- The storage with the names its objects are saved under. -/
def ObjectStorrage.cut (st : ObjectStorrage κ) : ObjectStorrage κ := { st with objects := st.objects.map fun _ g => g.cut }

theorem ObjectStorrage.getById_cut (st : ObjectStorrage κ) (k : Int32) :
    st.cut.getById k = (st.getById k).map GameObject.cut := Std.ExtTreeMap.getElem?_map

/-- An object without components and with less than `2^28` children. -/
theorem GameObject.serialize_commits {g : GameObject κ} (hcomp : g.componenten = [])
    (hids : g.childrenIds.length ≤ 2 ^ 28) :
    Commits (2 ^ 31 + 4) (2 ^ 31 + 4) g.serialize (encodeObject (fun _ => []) g.cut) := by
  have hmax : (2 ^ 32 : Nat) ≤ maxSize := by decide
  simp only [encodeObject, encodeMembers, cut, List.append_assoc]
  refine Commits.bind (M := 2 ^ 31 + 8) ?_ ?_
  · rw [hcomp]
    exact (writeAll_writes_of_le (Nat.le_refl _) (by simp) (fun _ h => absurd h List.not_mem_nil)).commits
      (by simp [encodeAll]) (by decide)
  refine Commits.bind (M := 2 ^ 31 + 12 + 2 ^ 30) ?_ ?_
  · refine (writeAll_writes_of_le (Nat.le_refl _) (by omega) fun ID _ => write_writes_max ID).commits ?_ (by decide)
    rw [length_encodeAll_values, sizeof_int32]
    omega
  refine Commits.bind (M := 2 ^ 31 + 16 + 2 ^ 30) ?_ ?_
  · exact (write_writes_max _).commits (by simp) (by decide)
  refine Commits.bind (M := 2 ^ 31 + 4) ?_ ?_
  · exact writeString_cut_commits (by decide) g.name
  refine Commits.bind (M := 2 ^ 31 + 8) ?_ ?_
  · exact (write_writes_max _).commits (by simp) (by decide)
  exact writeCString_commits (by decide) (by decide)

/-- No object has a component. -/
def ObjectStorrage.Plain (st : ObjectStorrage κ) : Prop := ∀ k g, st.getById k = some g → g.componenten = []

theorem ObjectStorrage.Plain.cut {st : ObjectStorrage κ} (h : st.Plain) : st.cut.Plain := by
  intro k g hg
  rw [getById_cut] at hg
  obtain ⟨o, ho, rfl⟩ := Option.map_eq_some_iff.mp hg
  exact h k o ho

theorem ObjectStorrage.Plain.clear {st : ObjectStorrage κ} (h : st.Plain) (deletes : C → Bool) :
    st.clear deletes = .ok {} := by
  refine clear_eq_ok.mpr ⟨fun k g hg => ?_, rfl⟩
  rw [h k g hg]
  exact ⟨Nat.two_pow_pos 31, nofun⟩

theorem ObjectStorrage.Plain.all {st : ObjectStorrage κ} (h : st.Plain) (P : κ → Prop) : st.All P := by
  intro k g hg c hc
  rw [h k g hg] at hc
  exact absurd hc List.not_mem_nil

/-- A save of such objects that returns has pushed the bytes of the scene. -/
theorem ObjectStorrage.serialize_plain {st : ObjectStorrage κ} (hplain : st.Plain)
    (hids : ∀ k g, st.getById k = some g → g.childrenIds.length ≤ 2 ^ 28) {image : List UInt8} {w w' : World}
    (h : st.serialize ([], w) = .ok ((), image, w')) : image = st.cut.bareBytes := by
  have hcommits : Commits (2 ^ 31 + 4) (2 ^ 31 + 4) st.serialize st.cut.bareBytes := by
    simp only [bareBytes, encodeStorrage, cut, Std.ExtTreeMap.toList_map, Std.ExtTreeMap.size_map, List.flatMap_map,
      List.append_assoc]
    refine Commits.bind (Commits.forM fun it hit => ?_) ?_
    · have hget := mem_toList.mp hit
      exact GameObject.serialize_commits (hplain _ _ hget) (hids _ _ hget)
    refine Commits.bind ((write_writes_max _).commits (M := 2 ^ 32) (by simp) (by decide)) ?_
    exact writeCString_commits (Nat.le_refl _) (by decide)
  obtain ⟨hr, _⟩ := hcommits [] w _ (by simp) h
  rw [Prod.mk.injEq, Prod.mk.injEq] at hr
  exact hr.2.1

/-- The same for objects without a name. -/
theorem ObjectStorrage.serialize_bare {st : ObjectStorrage κ} (hbare : st.Bare)
    (hids : ∀ k g, st.getById k = some g → g.childrenIds.length ≤ 2 ^ 28) {image : List UInt8} {w w' : World}
    (h : st.serialize ([], w) = .ok ((), image, w')) : image = st.bareBytes := by
  rw [serialize_plain (fun k g hg => (hbare k g hg).2) hids h]
  simp only [bareBytes, encodeStorrage, cut, Std.ExtTreeMap.toList_map, Std.ExtTreeMap.size_map, List.flatMap_map]
  congr 2
  refine List.flatMap_congr fun it hit => ?_
  have hname := (hbare _ _ (mem_toList.mp hit)).1
  simp only [GameObject.cut, hname, List.take_nil]
  rw [← hname]

end Serializer
