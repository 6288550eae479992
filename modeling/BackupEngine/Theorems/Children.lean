import BackupEngine.Lemmas.Trees
import BackupEngine.Theorems.Requirements

/-!
# The components of the children

`findComponentsInChildren(std::string)` goes down to the leaves; `findComponentsInChildren<T>()` asks the children for their own
components and ends there. In a forest the two find the same, in pre-order, exactly when nothing further down has a component
of the class.
-/

namespace Serializer

open Cpp

open Forest (Reaches Grounded ancestor)

open ObjectStorrage (Shows)

variable {κ C : Type} [ComponentClasses κ C]

namespace ObjectStorrage

variable {st : ObjectStorrage κ} {ks : List Int32} {ts : Trees Int32}

theorem Shows.roots (h : st.Shows ks ts) : ts.roots = ks := by
  induction h with
  | nil => rfl
  | node _ _ _ _ ihright => rw [Trees.roots, ihright]

/-- The trees under a list of ids are determined. -/
theorem Shows.unique {ts' : Trees Int32} (h : st.Shows ks ts) (h' : st.Shows ks ts') : ts = ts' := by
  induction h generalizing ts' with
  | nil =>
    cases h'
    rfl
  | node stored _ _ ihdown ihright =>
    cases h' with
    | node stored' down' right' =>
      cases stored.symm.trans stored'
      rw [ihdown down', ihright right']

end ObjectStorrage

namespace GameObject

variable {st : ObjectStorrage κ} {ks : List Int32} {ts : Trees Int32}

/-- The step of the loop in `findComponentsInChildren(std::string)`. -/
def childStep (st : ObjectStorrage κ) (name : List UInt8) (depth : Nat) (s : List Addr) (p : Int32 × Nat) :
    Comp (Option (List Addr)) := do
  let child ← st.deref p.1
  let temp ← findComponentsInChildrenNamed st name depth child
  return temp.map (s ++ [] ++ ·)

end GameObject

end Serializer

namespace SceenViewer

open Cpp Serializer

open Forest (Reaches Grounded ancestor)

open ObjectStorrage (Shows)

/-- The components of exactly a class. -/
def componentsOf (T : Class) (g : GameObject Data) : List Addr :=
  (g.componenten.filter fun c => c.data.classOf = T).map Component.addr

/-- A registered class has no derived class. -/
theorem isA_iff {T : Class} (hT : (Data.registered T.typeName).isSome) (S : Class) : T.isA S = true ↔ S = T := by
  have hconcrete : Class.all.all (fun T => !(Data.registered T.typeName).isSome ||
      (T != .engine .drawable && T != .engine .buttonActor && T != .eventListener)) = true := by decide
  have htable : Class.all.all (fun T => Class.all.all fun S => T == .engine .drawable || T == .engine .buttonActor ||
      T == .eventListener || (T.isA S == (S == T))) = true := by decide
  have hT' := List.all_eq_true.mp hconcrete T T.mem_all
  have hTS := List.all_eq_true.mp (List.all_eq_true.mp htable T T.mem_all) S S.mem_all
  rw [hT] at hT'
  simp only [Bool.not_true, Bool.false_or, Bool.and_eq_true, bne_iff_ne, ne_eq] at hT'
  simp only [Bool.or_eq_true, beq_iff_eq] at hTS
  rcases hTS with ((h | h) | h) | h
  · exact absurd h hT'.1.1
  · exact absurd h hT'.1.2
  · exact absurd h hT'.2
  · rw [h, beq_iff_eq]

theorem findComponents_eq {T : Class} (hT : (Data.registered T.typeName).isSome) (g : GameObject Data) :
    g.findComponents T = componentsOf T g := by
  refine congrArg _ (List.filter_congr fun c _ => ?_)
  exact Bool.eq_iff_iff.mpr ((isA_iff hT _).trans decide_eq_true_iff.symm)

end SceenViewer
