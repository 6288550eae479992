import BackupEngine.Lemmas.Serializer
import BackupEngine.Serializer.Values

/-!
# Values come back in reverse order

As long as all bytes together are less than 2^31, a sequence of values can be pushed onto any body, and popping into variables
of the same types, in reverse order, gives back the values and leaves the body as it was.
-/

namespace Serializer

open Cpp

section Operators

variable {α : Type} [StandardLayout α]

/-- Bytes copied over a whole buffer. -/
theorem copyTo_zero (old bs : List UInt8) (h : old.length = bs.length) : copyTo old 0 bs = .ok bs := by
  simpa using copyTo_end [] old bs h

/-- What the variable held does not matter. -/
theorem popTo_eq (data : α) (msg : SerializedObject) : popTo data msg = pop msg := by
  unfold popTo pop
  simp only
  cases hbytes : copyFrom msg (sizeT (msg.length - sizeof α)) (sizeof α) with
  | error e => rfl
  | ok bytes =>
    have hlen : (toBytes data).length = bytes.length := by
      rw [StandardLayout.length_toBytes]
      obtain ⟨⟨h0, hle⟩, rfl⟩ := copyFrom_eq_ok.mp hbytes
      rw [List.length_take, List.length_drop]
      omega
    rw [ok_bind, ok_bind, copyTo_zero _ _ hlen]
    rfl

/-- Neither does what a string held before. -/
theorem popStringTo_eq (data : List UInt8) (msg : SerializedObject) : popStringTo data msg = popString msg := by
  unfold popStringTo popString
  simp only
  cases copyFrom msg ((Int32.ofNat msg.length).toInt - sizeof Int32) (sizeof Int32) with
  | error e => rfl
  | ok bytes =>
    simp only [ok_bind]
    generalize (ofBytes bytes : Int32).toInt = nameSize
    by_cases hmax : sizeT nameSize ≤ maxSize
    · have hroom : ∀ old : List UInt8, resize old (sizeT nameSize) 0 = .ok (resized old (sizeT nameSize) 0) := fun old =>
        resize_eq_ok.mpr ⟨hmax, rfl⟩
      rw [hroom data, hroom [], ok_bind, ok_bind, length_resized, length_resized]
      cases hname : copyFrom msg ((Int32.ofNat msg.length).toInt - sizeof Int32 - nameSize) (sizeT nameSize) with
      | error e => rfl
      | ok name =>
        have hlen : (resized data (sizeT nameSize) 0).length = name.length := by
          rw [length_resized]
          obtain ⟨⟨h0, hle⟩, rfl⟩ := copyFrom_eq_ok.mp hname
          rw [List.length_take, List.length_drop]
          omega
        rw [ok_bind, ok_bind, copyTo_zero _ _ hlen]
        rfl
    · have hfull : ∀ old : List UInt8, resize old (sizeT nameSize) 0 = .error .lengthError := fun old => if_neg hmax
      rw [hfull data, hfull []]
      rfl

/-! ## Objects -/

/-- The bytes of an object: its body and the length of it. -/
def encodeNested (data : SerializedObject) : List UInt8 := data ++ toBytes (UInt64.ofNat data.length)

/-- The bytes of an object and the `size_t` of their number. -/
@[simp] theorem length_encodeNested (data : SerializedObject) : (encodeNested data).length = data.length + 8 := by
  simp [encodeNested]

/-- An object is pushed as its bytes and their number. -/
theorem pushObject_eq (msg data : SerializedObject) (h : msg.length + data.length + 8 < 2 ^ 31) :
    pushObject msg data = .ok (msg ++ encodeNested data) := by
  have hsize : sizeT ((msg.length : Int) + data.length + sizeof UInt64) = msg.length + (data.length + 8) := by
    rw [sizeof_uInt64]
    unfold sizeT
    omega
  have hmax : msg.length + (data.length + 8) ≤ maxSize := by
    unfold maxSize
    omega
  have hrep : List.replicate (data.length + 8) (0 : UInt8) =
      List.replicate data.length 0 ++ List.replicate 8 0 := List.replicate_add _ _ _
  have hfirst : copyTo (msg ++ List.replicate (data.length + 8) 0) msg.length data =
      .ok (msg ++ data ++ List.replicate 8 0) := by
    rw [hrep, ← List.append_assoc]
    exact copyTo_append msg _ _ data (by simp)
  have hsecond : copyTo (msg ++ data ++ List.replicate 8 0) ((msg.length : Int) + data.length)
      (toBytes (UInt64.ofNat data.length)) = .ok (msg ++ data ++ toBytes (UInt64.ofNat data.length)) := by
    have := copyTo_end (msg ++ data) (List.replicate 8 0) (toBytes (UInt64.ofNat data.length)) (by simp)
    rwa [List.length_append, Nat.cast_add] at this
  simp only [pushObject, hsize, resize_add _ _ _ hmax, ok_bind, hfirst, hsecond]
  rw [encodeNested, List.append_assoc]

/-- It comes back from the end. -/
theorem popObject_append (old msg data : SerializedObject) (h : (msg ++ encodeNested data).length < 2 ^ 31) :
    popObject old (msg ++ encodeNested data) = .ok (data, msg) := by
  have hlen : msg.length + data.length + 8 < 2 ^ 31 := by
    rw [List.length_append, length_encodeNested] at h
    omega
  have hsub : (((msg ++ encodeNested data).length : Int) - sizeof UInt64) = (msg ++ data).length := by
    rw [List.length_append, length_encodeNested, sizeof_uInt64, List.length_append]
    omega
  have hsize : copyFrom (msg ++ encodeNested data) ((msg ++ data).length : Nat) (sizeof UInt64) =
      .ok (toBytes (UInt64.ofNat data.length)) := by
    rw [encodeNested, ← List.append_assoc]
    exact copyFrom_end (msg ++ data) (toBytes (UInt64.ofNat data.length))
  have hnat : (UInt64.ofNat data.length).toNat = data.length :=
    UInt64.toNat_ofNat_of_lt' (Nat.lt_trans (by omega : data.length < 2 ^ 31) (by decide))
  have hroom : resize old data.length 0 = .ok (resized old data.length 0) := by
    refine resize_eq_ok.mpr ⟨?_, rfl⟩
    unfold maxSize
    omega
  have hstart : ((msg ++ data).length : Int) - data.length = msg.length := by
    rw [List.length_append]
    omega
  have hdata : copyFrom (msg ++ encodeNested data) msg.length data.length = .ok data := by
    rw [encodeNested, ← List.append_assoc]
    exact copyFrom_append msg data _
  have hbody : resize (msg ++ encodeNested data) (sizeT msg.length) 0 = .ok msg := by
    rw [sizeT_natCast (by omega)]
    exact resize_append _ _ _ (by unfold maxSize; omega)
  simp only [popObject, hsub, hsize, ok_bind, StandardLayout.ofBytes_toBytes, hnat, hroom, length_resized, hstart, hdata,
    copyTo_zero _ _ (length_resized old data.length 0), hbody]
  rfl

end Operators

/-! ## Sequences -/

/-- A value that is pushed comes back into a variable of its type, whatever that held. -/
def Value.ComesBack (v : Value) (msg : SerializedObject) : Prop :=
  ∃ body, v.push msg = .ok body ∧ body.length = msg.length + v.size ∧
    ∀ old : v.kind.Var, ∃ x, v.kind.pop old body = .ok (x, msg) ∧ v.Is x

/-- So do the values of a sequence, in reverse order. -/
def AllComeBack (vs : List Value) (msg : SerializedObject) : Prop :=
  ∃ body, Value.pushAll vs msg = .ok body ∧ body.length = msg.length + Value.sizes vs ∧
    ∀ old : Vars (vs.map Value.kind), ∃ xs, popAll (vs.map Value.kind) old body = .ok (xs, msg) ∧ Same vs xs

mutual

/-- By recursion on the value: a vector pushes its elements one after another. -/
theorem Value.comesBack : (v : Value) → (msg : SerializedObject) → msg.length + v.size < 2 ^ 31 → v.ComesBack msg
  | @Value.data α _ a, msg, h => by
    rw [Value.size] at h
    have hlen : (msg ++ toBytes a).length = msg.length + sizeof α := by simp
    refine ⟨msg ++ toBytes a, push_eq msg a (by unfold maxSize; omega), hlen, fun old => ⟨a, ?_, rfl⟩⟩
    exact (popTo_eq _ _).trans (pop_append msg a (by unfold maxSize; omega))
  | .string s, msg, h => by
    rw [Value.size, sizeof_int32] at h
    have hlen : (msg ++ encodeString s).length = msg.length + (s.length + 4) := by simp
    refine ⟨msg ++ encodeString s, pushChars_eq msg s (by omega), hlen, fun old => ⟨s, ?_, rfl⟩⟩
    exact (popStringTo_eq _ _).trans (popString_append msg s (by omega))
  | .cString s _, msg, h => by
    rw [Value.size, sizeof_int32] at h
    have hlen : (msg ++ encodeString s).length = msg.length + (s.length + 4) := by simp
    refine ⟨msg ++ encodeString s, pushChars_eq msg s (by omega), hlen, fun old => ⟨s, ?_, rfl⟩⟩
    exact (popStringTo_eq _ _).trans (popString_append msg s (by omega))
  | .object body values, msg, h => by
    rw [Value.size, sizeof_uInt64] at h
    obtain ⟨data, hdata, hlen, _⟩ := allComeBack values body (by omega)
    have hlen' : (msg ++ encodeNested data).length = msg.length + (body.length + Value.sizes values + 8) := by simp [hlen]
    refine ⟨msg ++ encodeNested data, ?_, hlen', fun old => ⟨data, ?_, hdata⟩⟩
    · rw [Value.push, hdata, ok_bind]
      exact pushObject_eq msg data (by omega)
    · exact popObject_append old msg data (by omega)

/-- The elements come back in reverse. -/
theorem allComeBack : (vs : List Value) → (msg : SerializedObject) → msg.length + Value.sizes vs < 2 ^ 31 →
    AllComeBack vs msg
  | [], msg, _ => ⟨msg, rfl, rfl, fun old => ⟨old, rfl, trivial⟩⟩
  | v :: vs, msg, h => by
    rw [Value.sizes] at h
    obtain ⟨top, hpush, hlen, hpop⟩ := Value.comesBack v msg (by omega)
    obtain ⟨body, hpushAll, hlenAll, hpopAll⟩ := allComeBack vs top (by omega)
    refine ⟨body, ?_, ?_, fun old => ?_⟩
    · rw [Value.pushAll, hpush, ok_bind, hpushAll]
    · rw [Value.sizes]
      omega
    · obtain ⟨x₀, xs₀⟩ := old
      obtain ⟨xs, hxs, hsame⟩ := hpopAll xs₀
      obtain ⟨x, hx, his⟩ := hpop x₀
      refine ⟨(x, xs), ?_, his, hsame⟩
      exact bind_eq_ok.mpr ⟨(xs, top), hxs, bind_eq_ok.mpr ⟨(x, msg), hx, rfl⟩⟩

end

/-- For every body and every sequence of values of less than 2^31 bytes together: they can be pushed, and popping them in
reverse order into variables of the same types, which may hold anything, gives back the values and leaves the body. -/
theorem values_come_back (values : List Value) (msg : SerializedObject) (h : msg.length + Value.sizes values < 2 ^ 31) :
    ∃ body, Value.pushAll values msg = .ok body ∧ ∀ old : Vars (values.map Value.kind), ∃ xs,
      popAll (values.map Value.kind) old body = .ok (xs, msg) ∧ Same values xs := by
  obtain ⟨body, hpush, _, hpop⟩ := allComeBack values msg h
  exact ⟨body, hpush, hpop⟩

/-- A number, two strings, and an object with another one in it. -/
def nestedValues : List Value :=
  [.data (5 : Int32), .string [0, 255], .cString [65] (by decide), .object [] [.data true, .object [7] [.string []]]]

theorem values_come_back_nested : ∃ body, Value.pushAll nestedValues [1, 2] = .ok body ∧
    ∀ old : Vars (nestedValues.map Value.kind), ∃ xs,
      popAll (nestedValues.map Value.kind) old body = .ok (xs, [1, 2]) ∧ Same nestedValues xs :=
  values_come_back nestedValues [1, 2] (by decide)

end Serializer
