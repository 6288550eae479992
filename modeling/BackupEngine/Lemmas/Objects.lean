import BackupEngine.Lemmas.Serializer
import BackupEngine.Serializer.Objects

/-!
# Saving and loading a storage

The bytes of a storage, and what `serialize` and `set` do with them, for any classes of components that `Saves` holds of:
`serialize` pushes the bytes of the component and the name of its class, and `set` on a new object of that class reads them
back. What is kept is told by a projection `saved` of the data of a component.
-/

namespace Serializer

open Cpp ByteStack

open ComponentClasses (typeName classOf registered)

/-- What is saved of a game object, its components up to what `saved` tells. -/
structure SavedObject (σ : Type) where
  ID : Int32
  name : List UInt8
  parrentID : Int32
  childrenIds : List Int32
  componenten : List σ
  deriving DecidableEq

variable {κ C σ : Type} [ComponentClasses κ C]

def GameObject.saved (saved : κ → σ) (g : GameObject κ) : SavedObject σ where
  ID := g.ID
  name := g.name
  parrentID := g.parrentID
  childrenIds := g.childrenIds
  componenten := g.componenten.map fun c => saved c.data

/-- What is saved of a storage: its objects by id. -/
def ObjectStorrage.saved (saved : κ → σ) (st : ObjectStorrage κ) : Int32 → Option (SavedObject σ) :=
  fun k => (st.getById k).map (GameObject.saved saved)

/-- Components that `ok` holds of are saved as the bytes `enc` and come back up to `saved`. -/
structure Saves (saved : κ → σ) (ok : κ → Prop) (enc : κ → List UInt8) : Prop where
  writes : ∀ c, ok c → Writes (2 ^ 31) (ComponentClasses.serialize c) (enc c ++ encodeString (typeName κ (classOf c)))
  reads : ∀ c, ok c → ∃ new, registered (typeName κ (classOf c)) = some new ∧
    ∀ s, Reads (2 ^ 31) (ComponentClasses.set (new s)) (fun c' => saved c' = saved c) (enc c)

section Encode

variable (enc : κ → List UInt8)

/-- The bytes of a component with the name of its class. -/
def encodeComponent (c : Component κ) : List UInt8 := enc c.data ++ encodeString (typeName κ (classOf c.data))

/-- The bytes of an object below the name of its class. -/
def encodeMembers (g : GameObject κ) : List UInt8 :=
  encodeAll (encodeComponent enc) g.componenten ++ encodeAll toBytes g.childrenIds ++ toBytes g.parrentID ++
    encodeString g.name ++ toBytes g.ID

def encodeObject (g : GameObject κ) : List UInt8 := encodeMembers enc g ++ encodeString (chars "class GameObject")

/-- The bytes of a storage: what `serialize` pushes. -/
def encodeStorrage (st : ObjectStorrage κ) : List UInt8 :=
  st.objects.toList.flatMap (fun it => encodeObject enc it.2) ++ toBytes (UInt64.ofNat st.objects.size) ++
    encodeString (chars "class ObjectStorrage")

variable {enc}

/-- A component takes a byte at least: that of the length of its tag. -/
theorem encodeComponent_pos (c : Component κ) : 0 < (encodeComponent enc c).length := by
  rw [encodeComponent, List.length_append, length_encodeString]
  omega

/-- An object takes a byte at least. -/
theorem encodeObject_pos (g : GameObject κ) : 0 < (encodeObject enc g).length := by
  rw [encodeObject, List.length_append, length_encodeString]
  omega

end Encode

variable {saved : κ → σ} {ok : κ → Prop} {enc : κ → List UInt8}

/-! ## Writing -/

/-- An object writes its components below its members. -/
theorem GameObject.serialize_writes (hs : Saves saved ok enc) {g : GameObject κ} (hok : ∀ c ∈ g.componenten, ok c.data) :
    Writes (2 ^ 31) g.serialize (encodeObject enc g) := by
  simp only [encodeObject, encodeMembers, List.append_assoc]
  refine Writes.bind (writeAll_writes encodeComponent_pos fun c hc => hs.writes c.data (hok c hc)) ?_
  refine Writes.bind (writeAll_writes (fun _ => by simp) fun ID _ => write_writes ID) ?_
  refine Writes.bind (write_writes _) ?_
  refine Writes.bind (writeString_writes _) ?_
  exact Writes.bind (write_writes _) (writeCString_writes _)

/-- Every component of every stored object. -/
def ObjectStorrage.All (st : ObjectStorrage κ) (P : κ → Prop) : Prop :=
  ∀ k g, st.getById k = some g → ∀ c ∈ g.componenten, P c.data

/-- The storage writes its objects in the order of their ids. -/
theorem ObjectStorrage.serialize_writes (hs : Saves saved ok enc) {st : ObjectStorrage κ} (hok : st.All ok) :
    Writes (2 ^ 31) st.serialize (encodeStorrage enc st) := by
  simp only [encodeStorrage, List.append_assoc]
  refine Writes.bind (Writes.forM fun it hit => ?_) (Writes.bind (write_writes _) (writeCString_writes _))
  have hget : st.getById it.1 = some it.2 := Std.ExtTreeMap.mem_toList_iff_getElem?_eq_some.mp hit
  exact GameObject.serialize_writes hs (hok it.1 it.2 hget)

/-- A storage that is saved has no object whose name has a negative length as an `int`. -/
theorem ObjectStorrage.serialize_name_lt {st : ObjectStorrage κ} {s : List UInt8 × World} {r : Unit × List UInt8 × World}
    (h : st.serialize s = .ok r) {k : Int32} {g : GameObject κ} (hg : st.getById k = some g) (hname : g.name.length < 2 ^ 32) :
    g.name.length < 2 ^ 31 := by
  obtain ⟨_, _, hobjects, _⟩ := ByteStack.bind_eq_ok.mp h
  obtain ⟨t, r', hobject⟩ := ByteStack.forM_returns hobjects (k, g) (Std.ExtTreeMap.mem_toList_iff_getElem?_eq_some.mpr hg)
  obtain ⟨_, _, _, hobject⟩ := ByteStack.bind_eq_ok.mp hobject
  obtain ⟨_, _, _, hobject⟩ := ByteStack.bind_eq_ok.mp hobject
  obtain ⟨_, _, _, hobject⟩ := ByteStack.bind_eq_ok.mp hobject
  obtain ⟨_, _, hwrite, _⟩ := ByteStack.bind_eq_ok.mp hobject
  obtain ⟨body, hpush, _⟩ := Cpp.bind_eq_ok.mp hwrite
  exact pushChars_data_lt hname hpush

/-! ## Components that are pushed alike -/

/-- The object with `f` applied to the data of its components. -/
def GameObject.mapData (f : κ → κ) (g : GameObject κ) : GameObject κ :=
  { g with componenten := g.componenten.map fun c => { c with data := f c.data } }

/-- The storage with `f` applied to the data of all components. -/
def ObjectStorrage.mapData (f : κ → κ) (st : ObjectStorrage κ) : ObjectStorrage κ :=
  { st with objects := st.objects.map fun _ g => g.mapData f }

/-- The objects are found under their ids. -/
theorem ObjectStorrage.getById_mapData (f : κ → κ) (st : ObjectStorrage κ) (k : Int32) :
    (st.mapData f).getById k = (st.getById k).map (GameObject.mapData f) := Std.ExtTreeMap.getElem?_map

/-- Components that are pushed alike make an object that is pushed alike. -/
theorem GameObject.serialize_mapData {f : κ → κ} {g : GameObject κ}
    (h : ∀ c ∈ g.componenten, ComponentClasses.serialize (f c.data) = ComponentClasses.serialize c.data) :
    (g.mapData f).serialize = g.serialize := by
  have hcomp : writeAll (fun c : Component κ => ComponentClasses.serialize c.data) (g.mapData f).componenten =
      writeAll (fun c => ComponentClasses.serialize c.data) g.componenten := writeAll_map h
  simp only [GameObject.serialize, hcomp]
  rfl

/-- They make a storage that is pushed alike. -/
theorem ObjectStorrage.serialize_mapData {f : κ → κ} {st : ObjectStorrage κ}
    (h : st.All fun c => ComponentClasses.serialize (f c) = ComponentClasses.serialize c) :
    (st.mapData f).serialize = st.serialize := by
  have hobjects : (st.objects.toList.map fun it => (it.1, it.2.mapData f)).forM (fun it => it.2.serialize) =
      st.objects.toList.forM fun it => it.2.serialize := by
    rw [List.forM_eq_forM, List.forM_map]
    refine forM_congr fun it hit => ?_
    exact GameObject.serialize_mapData (h it.1 it.2 (Std.ExtTreeMap.mem_toList_iff_getElem?_eq_some.mp hit))
  simp only [ObjectStorrage.serialize, ObjectStorrage.mapData, Std.ExtTreeMap.toList_map, Std.ExtTreeMap.size_map, hobjects]

/-- The bytes of a component are told by its class and its encoding. -/
theorem encodeStorrage_mapData {f : κ → κ} (hf : ∀ c, enc (f c) = enc c ∧ classOf (f c) = classOf c)
    (st : ObjectStorrage κ) : encodeStorrage enc (st.mapData f) = encodeStorrage enc st := by
  have hcomponent : ∀ c : Component κ, encodeComponent enc { c with data := f c.data } = encodeComponent enc c := by
    intro c
    rw [encodeComponent, encodeComponent, (hf c.data).1, (hf c.data).2]
  have hobject : ∀ g : GameObject κ, encodeObject enc (g.mapData f) = encodeObject enc g := by
    intro g
    simp only [encodeObject, encodeMembers, GameObject.mapData, encodeAll, ← List.map_reverse, List.flatMap_map,
      hcomponent, List.length_map]
  simp only [encodeStorrage, ObjectStorrage.mapData, Std.ExtTreeMap.toList_map, Std.ExtTreeMap.size_map, List.flatMap_map,
    hobject]

/-! ## Reading -/

/-- A registered class is built, in whatever the storage held before. -/
theorem createInstance_reads {name : List UInt8} {new : Storage → κ} (h : registered name = some new) :
    Reads (2 ^ 31) (outside (createInstance name)) (fun c : Component κ => ∃ s, c.data = new s) [] := by
  intro B w _
  rw [List.append_nil]
  let c : Component κ := { addr := w.next, isActiv := (w.memory w.next).flag 0, data := new (w.memory w.next) }
  refine ⟨c, { w with next := w.next + 1 }, ?_, w.memory w.next, rfl⟩
  rw [outside, createInstance, h]
  rfl

/-- Lists related element by element have equal images where related elements have. -/
theorem map_eq_of_forall₂ {α β γ : Type} {f : α → γ} {g : β → γ} {xs : List α} {ys : List β}
    (h : List.Forall₂ (fun a b => g b = f a) xs ys) : ys.map g = xs.map f := by
  induction h with
  | nil => rfl
  | cons h _ ih => rw [List.map_cons, List.map_cons, h, ih]

/-- A new object has neither children nor components. -/
theorem GameObject.new_reads :
    Reads (2 ^ 31) (outside fun w => .ok (GameObject.new w))
      (fun g : GameObject κ => g.childrenIds = [] ∧ g.componenten = []) [] := by
  intro B w _
  rw [List.append_nil]
  exact ⟨(GameObject.new w : GameObject κ × World).1, (GameObject.new w : GameObject κ × World).2, rfl, rfl, rfl⟩

/-- An object comes back, with components that are saved alike. -/
theorem GameObject.set_reads (hs : Saves saved ok enc) {g : GameObject κ} (hok : ∀ c ∈ g.componenten, ok c.data)
    {new : GameObject κ} (hids : new.childrenIds = []) (hcomp : new.componenten = []) :
    Reads (2 ^ 31) new.set (fun g' => g'.saved saved = g.saved saved) (encodeMembers enc g) := by
  refine (read_reads g.ID).bind_eq ((readString_reads g.name).bind_eq ((read_reads g.parrentID).bind_eq ?_))
  rw [hids, hcomp]
  refine (readAll_reads_eq (fun _ => by simp) read_reads g.childrenIds).bind_eq ?_
  have hnext : ∀ c ∈ g.componenten, Reads (2 ^ 31) (do
      let name ← readString
      let c ← outside (createInstance (κ := κ) name)
      let data ← ComponentClasses.set c.data
      return { c with data }) (fun c' => saved c'.data = saved c.data) (encodeComponent enc c) := by
    intro c hc
    obtain ⟨new, hnew, hread⟩ := hs.reads c.data (hok c hc)
    refine (readString_reads _).bind_eq ?_
    rw [← List.append_nil (enc c.data)]
    refine (createInstance_reads hnew).bind ?_
    rintro c' ⟨s, hc'⟩
    rw [hc']
    exact (hread s).last fun data hdata => Reads.pure hdata
  refine (readAll_reads encodeComponent_pos hnext).last fun cs hcs => Reads.pure ?_
  have hmap : cs.map (fun c => saved c.data) = g.componenten.map (fun c => saved c.data) := map_eq_of_forall₂ hcs
  simp only [GameObject.saved, hmap]

namespace ObjectStorrage

/-- An object is put under an id that is not taken; one that is taken keeps its object. -/
theorem getById_insert (st : ObjectStorrage κ) (g : GameObject κ) (ID k : Int32) :
    (st.addOnId ID g).getById k = if ID = k ∧ st.getById ID = none then some g else st.getById k := by
  have hmem : ID ∉ st.objects ↔ st.getById ID = none := by
    rw [← Std.ExtTreeMap.isSome_getElem?_iff_mem, getById, Option.not_isSome_iff_eq_none]
  simp only [getById, addOnId, Std.ExtTreeMap.getElem?_insertIfNew, Std.LawfulEqCmp.compare_eq_iff_eq]
  exact if_congr (and_congr_right fun _ => hmem) rfl rfl

/-- An object under a free id. -/
theorem getById_addOnId (st : ObjectStorrage κ) (g : GameObject κ) {ID k : Int32} (h : st.getById ID = none) :
    (st.addOnId ID g).getById k = if ID = k then some g else st.getById k := by
  rw [getById_insert, h]
  simp only [and_true]

/-- An object is stored under the id it carries. -/
def Keyed (st : ObjectStorrage κ) : Prop := ∀ k g, st.getById k = some g → g.ID = k

/-- The objects of the map are those that are found. -/
theorem mem_toList {st : ObjectStorrage κ} {k : Int32} {g : GameObject κ} :
    (k, g) ∈ st.objects.toList ↔ st.getById k = some g := Std.ExtTreeMap.mem_toList_iff_getElem?_eq_some

/-- No id is there twice. -/
theorem nodup_keys (st : ObjectStorrage κ) : (st.objects.toList.map Prod.fst).Nodup := by
  rw [Std.ExtTreeMap.map_fst_toList_eq_keys]
  exact Std.ExtTreeMap.nodup_keys

/-- The counter can be one above every id. -/
def Countable (st : ObjectStorrage κ) : Prop := ∀ k g, st.getById k = some g → k.toInt + 1 < 2 ^ 31

/-- Only the largest `int` has no `int` above it. -/
theorem countable_iff {st : ObjectStorrage κ} : st.Countable ↔ st.getById 2147483647 = none := by
  constructor
  · intro h
    rw [← Option.not_isSome_iff_eq_none, Option.isSome_iff_exists]
    rintro ⟨g, hg⟩
    exact absurd (h _ g hg) (by decide)
  · intro h k g hg
    have hlt := k.toInt_lt
    by_contra hlarge
    have hk : k = 2147483647 := Int32.toInt_inj.mp (show k.toInt = 2147483647 by omega)
    rw [hk, h] at hg
    cases hg

/-- The ids stay countable, whatever the components become. -/
theorem Countable.mapData {st : ObjectStorrage κ} (h : st.Countable) (f : κ → κ) : (st.mapData f).Countable := by
  intro k g hg
  rw [getById_mapData] at hg
  obtain ⟨o, ho, _⟩ := Option.map_eq_some_iff.mp hg
  exact h k o ho

/-- The objects in the order of their ids: one that is stored under the largest `int` is the last one. -/
theorem toList_eq_concat {st : ObjectStorrage κ} {g : GameObject κ} (hg : st.getById 2147483647 = some g) :
    ∃ below, st.objects.toList = below ++ [(2147483647, g)] := by
  obtain ⟨below, above, hsplit⟩ := List.append_of_mem (mem_toList.mpr hg)
  have hsorted : st.objects.toList.Pairwise fun a b => compare a.1 b.1 = .lt := Std.ExtTreeMap.ordered_keys_toList
  rw [hsplit, List.pairwise_append, List.pairwise_cons] at hsorted
  cases above with
  | nil => exact ⟨below, hsplit⟩
  | cons it above =>
    have hlt := Int32.lt_iff_toInt_lt.mp (Std.compare_eq_lt.mp (hsorted.2.1.1 it List.mem_cons_self))
    have hmax : (2147483647 : Int32).toInt = 2147483647 := by decide
    have := it.1.toInt_lt
    exact absurd (hmax ▸ hlt) (by omega)

/-! ## Clearing -/

/-- The deletes of `clear` are defined, or pass: every component is of a class that `deletes` holds of. -/
def Deletable (deletes : C → Bool) (st : ObjectStorrage κ) : Prop :=
  ∀ k g, st.getById k = some g → g.componenten.length < 2 ^ 31 ∧ ∀ c ∈ g.componenten, deletes (classOf c.data)

/-- The loop of the destructor counts with an `int` and needs every component to be one that can be deleted. -/
theorem destroy_eq_ok {deletes : C → Bool} {g : GameObject κ} :
    g.destroy deletes = .ok () ↔ g.componenten.length < 2 ^ 31 ∧ ∀ c ∈ g.componenten, deletes (classOf c.data) := by
  rw [GameObject.destroy, Cpp.bind_eq_ok]
  have hforM := forM_eq_ok (l := g.componenten)
    (f := fun c => if deletes (classOf c.data) then .ok () else .error .badDelete)
  have hdelete : ∀ c : Component κ, (if deletes (classOf c.data) then .ok () else .error .badDelete : Comp Unit) = .ok () ↔
      deletes (classOf c.data) := by
    intro c
    cases deletes (classOf c.data) <;> simp
  simp only [hdelete] at hforM
  constructor
  · rintro ⟨n, hn, h⟩
    have := (int_eq_ok.mp hn).1.2
    exact ⟨by omega, hforM.mp h⟩
  · rintro ⟨hlt, h⟩
    exact ⟨_, int_of_inInt ⟨by omega, by omega⟩, hforM.mpr h⟩

/-- `clear` returns exactly when all components can be deleted, and leaves a new storage. -/
theorem clear_eq_ok {deletes : C → Bool} {st st' : ObjectStorrage κ} :
    st.clear deletes = .ok st' ↔ st.Deletable deletes ∧ st' = {} := by
  have hforM := forM_eq_ok (l := st.objects.toList) (f := fun it => it.2.destroy deletes)
  have hall : (∀ it ∈ st.objects.toList, it.2.destroy deletes = .ok ()) ↔ st.Deletable deletes := by
    simp only [destroy_eq_ok, Prod.forall, mem_toList]
    rfl
  rw [ObjectStorrage.clear, Cpp.bind_eq_ok]
  constructor
  · rintro ⟨_, h, hr⟩
    cases hr
    exact ⟨hall.mp (hforM.mp h), rfl⟩
  · rintro ⟨h, rfl⟩
    exact ⟨(), hforM.mpr (hall.mpr h), rfl⟩

/-- A storage has no more objects than bytes. -/
theorem length_toList_le (enc : κ → List UInt8) (st : ObjectStorrage κ) :
    st.objects.toList.length ≤ (st.objects.toList.flatMap fun it => encodeObject enc it.2).length := by
  have hpos : ∀ it : Int32 × GameObject κ, 0 < (encodeObject enc it.2).length := fun it => encodeObject_pos it.2
  have := length_le_flatMap hpos st.objects.toList.reverse
  rwa [List.reverse_reverse, List.length_reverse] at this

/-- An object has no more components than the storage has bytes. -/
theorem length_componenten_le (enc : κ → List UInt8) {st : ObjectStorrage κ} {k : Int32} {g : GameObject κ}
    (hg : st.getById k = some g) : g.componenten.length ≤ (encodeStorrage enc st).length := by
  obtain ⟨below, above, hsplit⟩ := List.append_of_mem (mem_toList.mpr hg)
  have hpos : ∀ c, 0 < (encodeComponent enc c).length := encodeComponent_pos
  have hcomps := length_le_encodeAll hpos g.componenten
  rw [encodeStorrage, hsplit, List.flatMap_append, List.flatMap_cons]
  simp only [encodeObject, encodeMembers, List.length_append]
  omega

/-- The state of the load loop after the entries `pre`, when it began with the storage `base`: what was stored is kept, what
was loaded is stored where nothing was, and the counter is above the ids that were loaded. -/
structure Loaded (saved : κ → σ) (base : ObjectStorrage κ) (pre : List (Int32 × GameObject κ)) (st : ObjectStorrage κ) :
    Prop where
  kept : ∀ k g, base.getById k = some g → st.getById k = some g
  added : ∀ k, base.getById k = none → ∀ o, st.saved saved k = some o ↔ ∃ g, (k, g) ∈ pre ∧ g.saved saved = o
  counter : base.counter ≤ st.counter
  below : ∀ it ∈ pre, it.1.toInt < st.counter
  reached : st.counter = base.counter ∨ ∃ it ∈ pre, st.counter = it.1.toInt + 1

/-- Nothing was read yet. -/
theorem Loaded.start (base : ObjectStorrage κ) : Loaded saved base [] base where
  kept := fun _ _ h => h
  added := fun k hk o => by simp [ObjectStorrage.saved, hk]
  counter := le_refl _
  below := nofun
  reached := .inl rfl

/-- One object more was read, under an id that none of those before has. -/
theorem Loaded.add {base : ObjectStorrage κ} {pre : List (Int32 × GameObject κ)} {st : ObjectStorrage κ}
    (h : Loaded saved base pre st) {k : Int32} {g g' : GameObject κ} (hk : k ∉ pre.map Prod.fst) (hID : g.ID = k)
    (hg : g'.saved saved = g.saved saved) :
    Loaded saved base (pre ++ [(k, g)])
      { st.addOnId g'.ID g' with counter := max st.counter (g'.ID.toInt + 1) } := by
  have hID' : g'.ID = k := (congrArg SavedObject.ID hg).trans hID
  have hget : ∀ j, ({ st.addOnId k g' with counter := max st.counter (k.toInt + 1) } : ObjectStorrage κ).getById j =
      if k = j ∧ st.getById k = none then some g' else st.getById j := getById_insert st g' k
  rw [hID']
  constructor
  case kept =>
    intro j o hj
    rw [hget, if_neg, h.kept j o hj]
    rintro ⟨rfl, hnone⟩
    rw [h.kept k o hj] at hnone
    cases hnone
  case added =>
    intro j hj o
    rw [ObjectStorrage.saved, hget]
    by_cases hkj : k = j
    · subst hkj
      have hnone : st.getById k = none := by
        by_contra hsome
        obtain ⟨o, ho⟩ := Option.ne_none_iff_exists'.mp hsome
        obtain ⟨u, hu, _⟩ := (h.added k hj (o.saved saved)).mp (by simp [ObjectStorrage.saved, ho])
        exact hk (List.mem_map.mpr ⟨(k, u), hu, rfl⟩)
      rw [if_pos ⟨rfl, hnone⟩, Option.map_some, hg, Option.some_inj]
      constructor
      · intro ho
        exact ⟨g, by simp, ho⟩
      · rintro ⟨u, hu, ho⟩
        rcases List.mem_append.mp hu with hu | hu
        · exact absurd (List.mem_map.mpr ⟨(k, u), hu, rfl⟩) hk
        · rw [List.mem_singleton, Prod.mk.injEq] at hu
          rw [← hu.2, ho]
    · rw [if_neg fun h => hkj h.1]
      have hiff := h.added j hj o
      rw [ObjectStorrage.saved] at hiff
      rw [hiff]
      simp [Ne.symm hkj]
  case counter => exact le_max_of_le_left h.counter
  case below =>
    intro it hit
    rcases List.mem_append.mp hit with hit | hit
    · exact lt_max_of_lt_left (h.below it hit)
    · rw [List.mem_singleton.mp hit]
      exact lt_max_of_lt_right (Int.lt_succ _)
  case reached =>
    rcases le_total (k.toInt + 1) st.counter with hle | hle
    · rw [max_eq_left hle]
      exact h.reached.imp_right fun ⟨it, hit, heq⟩ => ⟨it, List.mem_append_left _ hit, heq⟩
    · rw [max_eq_right hle]
      exact .inr ⟨(k, g), by simp, rfl⟩

/-- Loading reads all objects that were pushed, the last of them first. -/
theorem set_reads (hs : Saves saved ok enc) {st : ObjectStorrage κ} (hok : st.All ok) (hkey : st.Keyed)
    (hcount : st.Countable) (base : ObjectStorrage κ) :
    Reads (2 ^ 31) base.set (Loaded saved base st.objects.toList.reverse)
      (st.objects.toList.flatMap (fun it => encodeObject enc it.2) ++ toBytes (UInt64.ofNat st.objects.size)) := by
  refine reads_of_lt fun hL => ?_
  have hlen : st.objects.toList.length < 2 ^ 31 := by
    have := length_toList_le enc st
    rw [List.length_append] at hL
    omega
  refine (read_reads (UInt64.ofNat st.objects.size)).bind_eq ?_
  rw [← Std.ExtTreeMap.length_toList, forUpTo_ofNat hlen, ← List.length_reverse]
  have hbytes : st.objects.toList.flatMap (fun it => encodeObject enc it.2) =
      st.objects.toList.reverse.reverse.flatMap (fun it => encodeObject enc it.2) := by rw [List.reverse_reverse]
  rw [hbytes]
  refine Reads.loop _ (Loaded saved base) ?_ (.start base)
  rintro pre ⟨k, g⟩ st' hpre h
  have hk : k ∉ pre.map Prod.fst := by
    have hnd : (st.objects.toList.reverse.map Prod.fst).Nodup := by
      rw [List.map_reverse]
      exact List.nodup_reverse.mpr (nodup_keys st)
    have hnd' := hnd.sublist ((hpre.map Prod.fst).sublist)
    rw [List.map_append, List.map_singleton, List.nodup_append] at hnd'
    intro hmem
    exact hnd'.2.2 k hmem k (List.mem_singleton_self k) rfl
  have hget : st.getById k = some g := mem_toList.mp (List.mem_reverse.mp (hpre.subset (by simp)))
  rw [← List.append_nil (encodeObject enc g)]
  refine GameObject.new_reads.bind fun g₀ hg₀ => ?_
  rw [encodeObject]
  refine (readString_reads _).bind_eq ?_
  refine (GameObject.set_reads hs (hok k g hget) hg₀.1 hg₀.2).last fun g' hg' => ?_
  have hID : g'.ID = k := (congrArg SavedObject.ID hg').trans (hkey k g hget)
  have hint : int (g'.ID.toInt + 1) = .ok (g'.ID.toInt + 1) := by
    have := hcount k g hget
    have := k.le_toInt
    exact int_of_inInt (hID ▸ ⟨by omega, by omega⟩)
  rw [hint, lift_ok_bind]
  exact Reads.pure (h.add hk (hkey k g hget) hg')

/-- The object under the largest `int` is the first one that is read, and no `int` is above its id. -/
theorem set_overflows (hs : Saves saved ok enc) {st : ObjectStorrage κ} (hok : st.All ok) (hkey : st.Keyed)
    {g : GameObject κ} (hg : st.getById 2147483647 = some g) (base : ObjectStorrage κ)
    (hlen : st.objects.toList.length < 2 ^ 31) :
    Faults (2 ^ 31) base.set .overflow
      (st.objects.toList.flatMap (fun it => encodeObject enc it.2) ++ toBytes (UInt64.ofNat st.objects.size)) := by
  obtain ⟨below, hlist⟩ := toList_eq_concat hg
  refine (read_reads (UInt64.ofNat st.objects.size)).bind_faults fun size hsize => ?_
  rw [hsize, ← Std.ExtTreeMap.length_toList, forUpTo_ofNat hlen, hlist, List.flatMap_append, List.length_append,
    List.flatMap_singleton]
  refine Faults.loop ?_
  rw [← List.append_nil (_ ++ encodeObject enc g)]
  refine GameObject.new_reads.bind_faults fun g₀ hg₀ => ?_
  rw [encodeObject, ← List.append_assoc]
  refine (readString_reads _).bind_faults fun _ _ => ?_
  refine (GameObject.set_reads hs (hok _ g hg) hg₀.1 hg₀.2).bind_faults fun g' hg' => ?_
  have hID : g'.ID = 2147483647 := (congrArg SavedObject.ID hg').trans (hkey _ g hg)
  intro B w _
  rw [hID]
  rfl

/-- What a load of `st` makes of the storage `base`: the objects of `base` are kept, where it has none there is what was saved,
and the counter is the larger one of its own and what the loaded ids need. -/
structure Merged (saved : κ → σ) (base st merged : ObjectStorrage κ) : Prop where
  kept : ∀ k g, base.getById k = some g → merged.getById k = some g
  added : ∀ k, base.getById k = none → merged.saved saved k = st.saved saved k
  counter : base.counter ≤ merged.counter
  below : ∀ k g, st.getById k = some g → k.toInt < merged.counter
  reached : merged.counter = base.counter ∨ ∃ k g, st.getById k = some g ∧ merged.counter = k.toInt + 1

/-- Popping the name and calling `set` puts what was saved on top of what is stored. -/
theorem load_merges (hs : Saves saved ok enc) {st : ObjectStorrage κ} (hok : st.All ok) (hkey : st.Keyed)
    (hcount : st.Countable) (base : ObjectStorrage κ) :
    Reads (2 ^ 31) base.load (fun r => r.1 = chars "class ObjectStorrage" ∧ Merged saved base st r.2)
      (encodeStorrage enc st) := by
  refine (readString_reads _).bind_eq ?_
  refine (set_reads hs hok hkey hcount base).last fun st' h => Reads.pure ⟨rfl, h.kept, fun k hk => ?_, h.counter, ?_, ?_⟩
  · refine Option.ext fun o => ?_
    rw [h.added k hk o]
    simp only [List.mem_reverse, mem_toList, ObjectStorrage.saved, Option.map_eq_some_iff]
  · exact fun k g hg => h.below (k, g) (List.mem_reverse.mpr (mem_toList.mpr hg))
  · refine h.reached.imp_right ?_
    rintro ⟨⟨k, g⟩, hit, heq⟩
    exact ⟨k, g, mem_toList.mp (List.mem_reverse.mp hit), heq⟩

/-- A storage that holds an object under the largest `int` cannot be loaded. -/
theorem load_overflows (hs : Saves saved ok enc) {st : ObjectStorrage κ} (hok : st.All ok) (hkey : st.Keyed)
    {g : GameObject κ} (hg : st.getById 2147483647 = some g) (base : ObjectStorrage κ) :
    Faults (2 ^ 31) base.load .overflow (encodeStorrage enc st) := by
  intro B w hL
  have hlen : st.objects.toList.length < 2 ^ 31 := by
    have := length_toList_le enc st
    rw [encodeStorrage, List.length_append, List.length_append, List.length_append] at hL
    omega
  refine (readString_reads _).bind_faults (fun _ _ => ?_) B w hL
  exact (set_overflows hs hok hkey hg base hlen).bind

/-- A load that returns was of a storage whose ids the counter can pass. -/
theorem countable_of_load (hs : Saves saved ok enc) {st : ObjectStorrage κ} (hok : st.All ok) (hkey : st.Keyed)
    {base : ObjectStorrage κ} {B : List UInt8} (hL : (B ++ encodeStorrage enc st).length < 2 ^ 31) {w : World}
    {r : (List UInt8 × ObjectStorrage κ) × List UInt8 × World} (h : base.load (B ++ encodeStorrage enc st, w) = .ok r) :
    st.Countable := by
  rw [countable_iff, ← Option.not_isSome_iff_eq_none, Option.isSome_iff_exists]
  rintro ⟨g, hg⟩
  rw [load_overflows hs hok hkey hg base B w hL] at h
  cases h

/-- Popping the name and calling `set` on an empty storage gives back what was saved. -/
theorem load_reads (hs : Saves saved ok enc) {st : ObjectStorrage κ} (hok : st.All ok) (hkey : st.Keyed)
    (hcount : st.Countable) (c : Int) :
    Reads (2 ^ 31) (load { objects := ∅, counter := c })
      (fun r => r.1 = chars "class ObjectStorrage" ∧ r.2.saved saved = st.saved saved ∧ c ≤ r.2.counter ∧
        ∀ k g, r.2.getById k = some g → k.toInt < r.2.counter) (encodeStorrage enc st) := by
  refine (load_merges hs hok hkey hcount { objects := ∅, counter := c }).mono fun r h => ?_
  have hsaved : r.2.saved saved = st.saved saved := funext fun k => h.2.added k (by simp [getById])
  refine ⟨h.1, hsaved, h.2.counter, fun k g hg => ?_⟩
  have hk := congrFun hsaved k
  rw [ObjectStorrage.saved, ObjectStorrage.saved, hg, Option.map_some] at hk
  obtain ⟨o, ho, _⟩ := Option.map_eq_some_iff.mp hk.symm
  exact h.2.below k o ho

end ObjectStorrage

end Serializer
