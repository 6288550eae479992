import BackupEngine.EventSystem.EventSystem
import BackupEngine.Lemmas.Serializer

/-!
# Saving the event system

`serialize` pushes the pairs of the listeners, and `set` pops nothing. What was pushed stays on the body, and a new
`EventSystem` has no listener.
-/

namespace Events

open Cpp Serializer

namespace EventSystem

/-- What is saved above `B` comes back in an `EventSystem` without listeners, and `B` is left. -/
def Restored (this : EventSystem) (B : SerializedObject) (w : World) : Prop :=
  ∃ body w₁, this.serialize (B, w) = .ok ((), body, w₁) ∧
    ∃ name this' w₂, load {} (body, w₁) = .ok ((name, this'), B, w₂) ∧ this'.listenerIDs = this.listenerIDs ∧
      this'.listener = this.listener

/-- A load pops the type name and leaves the `EventSystem` as it is. -/
theorem load_ok {this this' : EventSystem} {name body rest : List UInt8} {w w' : World}
    (h : this.load (body, w) = .ok ((name, this'), rest, w')) : popString body = .ok (name, rest) ∧ this' = this := by
  obtain ⟨name', ⟨B, w₁⟩, hname, h⟩ := ByteStack.bind_eq_ok.mp h
  obtain ⟨⟨data, msg⟩, hpop, hr⟩ := Cpp.bind_eq_ok.mp hname
  cases hr
  cases h
  exact ⟨hpop, rfl⟩

theorem push_length {α : Type} [StandardLayout α] {msg r : SerializedObject} {data : α} (h : push msg data = .ok r) :
    r.length = msg.length + sizeof α := by
  obtain ⟨body, hbody, hcopy⟩ := Cpp.bind_eq_ok.mp h
  rw [length_copyTo hcopy, ← (resize_eq_ok.mp hbody).2, length_resized]

/-- Without listeners eight bytes and the type name are pushed, and a load pops the type name. -/
theorem rest_of_no_listener {B body : SerializedObject} {name rest : List UInt8} {this : EventSystem} {w w₁ : World}
    (hnone : this.listenerIDs = []) (hsave : this.serialize (B, w) = .ok ((), body, w₁))
    (hpop : popString body = .ok (name, rest)) : rest ≠ B := by
  simp only [serialize, hnone] at hsave
  obtain ⟨_, ⟨B₁, w₂⟩, hloop, hsave⟩ := ByteStack.bind_eq_ok.mp hsave
  cases hloop
  obtain ⟨_, ⟨B₂, w₃⟩, hint, hsave⟩ := ByteStack.bind_eq_ok.mp hsave
  cases hint
  obtain ⟨_, ⟨B₃, w₄⟩, hsize, hsave⟩ := ByteStack.bind_eq_ok.mp hsave
  obtain ⟨counted, hcounted, hr⟩ := Cpp.bind_eq_ok.mp hsize
  cases hr
  obtain ⟨named, hnamed, hr⟩ := Cpp.bind_eq_ok.mp hsave
  cases hr
  have hlen : B₃.length = B.length + 8 := push_length hcounted
  have hbody := pushChars_eq_take (by decide) hnamed
  have hshort : body.length < 2 ^ 31 := (popString_ok (Nat.lt_trans (pushChars_length hnamed) (by decide)) hpop).1
  rw [hbody] at hshort hpop
  rw [popString_append _ _ hshort] at hpop
  cases hpop
  intro heq
  have hcut := congrArg List.length heq
  rw [List.length_take, hlen, Int32.toInt_ofNat', Int32.size, Int.bmod_def] at hcut
  split at hcut <;> omega

/-- No `EventSystem` comes back from any body. -/
theorem never_restored (this : EventSystem) (B : SerializedObject) (w : World) : ¬Restored this B w := by
  rintro ⟨body, w₁, hsave, name, this', w₂, hload, hids, _⟩
  obtain ⟨hpop, rfl⟩ := load_ok hload
  exact rest_of_no_listener hids.symm hsave hpop rfl

/-- One listener: its pair and the count stay on the body, and the new `EventSystem` has none. -/
theorem one_listener_lost :
    ∃ body w₁ w₂, serialize { listener := [5], listenerIDs := [(3, 0)] } ([], World.blank) = .ok ((), body, w₁) ∧
      load {} (body, w₁) =
        .ok ((chars "class EventSystem", {}), [3, 0, 0, 0, 0, 0, 0, 0, 1, 0, 0, 0, 0, 0, 0, 0], w₂) ∧
      ¬Restored { listener := [5], listenerIDs := [(3, 0)] } [] .blank := by
  have hrun : (do
      let (_, body, w₁) ← serialize { listener := [5], listenerIDs := [(3, 0)] } ([], World.blank)
      let ((name, this), rest, _) ← load {} (body, w₁)
      return (name, this, rest)) =
      (.ok (chars "class EventSystem", {}, [3, 0, 0, 0, 0, 0, 0, 0, 1, 0, 0, 0, 0, 0, 0, 0]) :
        Comp (List UInt8 × EventSystem × List UInt8)) := by decide +kernel
  obtain ⟨⟨_, body, w₁⟩, hsave, hrun⟩ := Cpp.bind_eq_ok.mp hrun
  obtain ⟨⟨⟨name, this⟩, rest, w₂⟩, hload, hrun⟩ := Cpp.bind_eq_ok.mp hrun
  cases hrun
  refine ⟨body, w₁, w₂, hsave, hload, ?_⟩
  rintro ⟨body', w₁', hsave', name', this', w₂', hload', _⟩
  rw [hsave] at hsave'
  cases hsave'
  rw [hload] at hload'
  cases hload'

end EventSystem

end Events
