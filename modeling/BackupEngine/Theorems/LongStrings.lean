import BackupEngine.Lemmas.Serializer

/-!
# Strings on bodies of any length

The string operators keep the lengths of body and string as `int`. Where the two do not fit, the body is resized by what is
left of them: the operator fails before it has changed anything if that is negative, and otherwise drops or overwrites bytes,
leaves the memory of the vector, or leaves a string that does not come back.
-/

namespace Serializer

open Cpp

/-- The two operators that push a string: of a `std::string`, and of a C string. -/
inductive StringPush where
  | string
  | cString

/-- The operator. -/
def StringPush.push : StringPush → SerializedObject → List UInt8 → Comp SerializedObject
  | string => pushString
  | cString => pushCString

/-- The operator throws before it has changed the body, or it keeps the body as a prefix and a pop gives back the string and
the body. -/
def KeepsBody (op : StringPush) (msg : SerializedObject) (data : List UInt8) : Prop :=
  op.push msg data = .error .lengthError ∨
    ∃ body, op.push msg data = .ok body ∧ msg <+: body ∧ popString body = .ok (data, msg)

/-- What the variables `start` and `nameSize` hold. -/
def startOf (msg : SerializedObject) : Int := (Int32.ofNat msg.length).toInt

def nameSizeOf (data : List UInt8) : Int := (Int32.ofNat data.length).toInt

theorem StringPush.push_eq (op : StringPush) (msg : SerializedObject) (data : List UInt8) :
    op.push msg data = pushChars msg data := by cases op <;> rfl

/-- A pop gives back a string whose length is an `int`. -/
theorem popString_length {msg body data : List UInt8} (h : popString msg = .ok (data, body)) : data.length < 2 ^ 31 := by
  simp only [popString] at h
  obtain ⟨bytes, _, h⟩ := bind_eq_ok.mp h
  obtain ⟨room, hroom, h⟩ := bind_eq_ok.mp h
  obtain ⟨chars, hchars, h⟩ := bind_eq_ok.mp h
  obtain ⟨_, _, h⟩ := bind_eq_ok.mp h
  cases h
  obtain ⟨hmax, rfl⟩ := resize_eq_ok.mp hroom
  have hnonneg := nonneg_of_sizeT_le (Int32.le_toInt _) hmax
  have hlt := (ofBytes bytes : Int32).toInt_lt
  obtain ⟨_, rfl⟩ := copyFrom_eq_ok.mp hchars
  rw [length_resized, List.length_take, sizeT_of_nonneg hnonneg hlt]
  omega

/-- The operator throws exactly when `start` and `nameSize` add up to an `int` below -4: the size of the new body wraps to one
that no vector has. -/
theorem pushChars_throws_iff {msg data : List UInt8} : pushChars msg data = .error .lengthError ↔
    InInt (startOf msg + nameSizeOf data) ∧ startOf msg + nameSizeOf data + 4 < 0 := by
  have hwrap : ∀ {sum : Int}, InInt sum → (maxSize < sizeT (sum + sizeof Int32) ↔ sum + 4 < 0) := by
    rintro sum ⟨hlow, hhigh⟩
    rw [sizeof_int32]
    unfold sizeT maxSize
    omega
  constructor
  · intro h
    rcases bind_eq_error.mp h with h | ⟨sum, hsum, h⟩
    · cases eq_overflow_of_int h
    obtain ⟨hint, rfl⟩ := int_eq_ok.mp hsum
    rcases bind_eq_error.mp h with h | ⟨_, _, h⟩
    · exact ⟨hint, (hwrap hint).mp (resize_eq_error.mp h).1⟩
    -- Behind the resize there are only copies.
    rcases bind_eq_error.mp h with h | ⟨_, _, h⟩
    · cases eq_badAccess_of_copyFrom h
    rcases bind_eq_error.mp h with h | ⟨_, _, h⟩
    · cases eq_badAccess_of_copyTo h
    · cases eq_badAccess_of_copyTo h
  · rintro ⟨hint, hneg⟩
    exact bind_eq_error.mpr (.inr ⟨_, int_of_inInt hint, bind_eq_error.mpr (.inl
      (resize_eq_error.mpr ⟨(hwrap hint).mpr hneg, rfl⟩))⟩)

/-- For every body and every string the operators keep the body exactly when everything together has less than 2^31 bytes, or
the operator throws. -/
theorem keepsBody_iff (op : StringPush) (msg : SerializedObject) (data : List UInt8) :
    KeepsBody op msg data ↔ msg.length + data.length + 4 < 2 ^ 31 ∨
      (InInt (startOf msg + nameSizeOf data) ∧ startOf msg + nameSizeOf data + 4 < 0) := by
  rw [KeepsBody, op.push_eq, pushChars_throws_iff, or_comm]
  refine or_congr ⟨?_, fun h => ?_⟩ .rfl
  · rintro ⟨body, hpush, hprefix, hpop⟩
    have hbody := pushChars_length hpush
    have hmsg := hprefix.length_le
    have hdata := popString_length hpop
    have hlt := (popString_ok (by omega) hpop).1
    rw [(pushChars_commits (by omega) (by omega) hpush).1, List.length_append, length_encodeString] at hlt
    omega
  · refine ⟨_, pushChars_eq msg data (by omega), List.prefix_append _ _, popString_append msg data ?_⟩
    rw [List.length_append, length_encodeString]
    omega

/-- A string on a body of 2^32 bytes: the body is dropped. -/
theorem body_dropped : ∃ msg : SerializedObject, msg.length = 2 ^ 32 ∧
    (∃ body, pushString msg [1] = .ok body ∧ body.length = 5) ∧ ¬KeepsBody .string msg [1] := by
  obtain ⟨msg, hlen⟩ : ∃ msg : SerializedObject, msg.length = 2 ^ 32 := ⟨List.replicate (2 ^ 32) 0, List.length_replicate⟩
  have hstart : (Int32.ofNat msg.length).toInt = 0 := by
    rw [hlen]
    decide
  have hcut : resize msg 5 0 = .ok (resized msg 5 0) := resize_eq_ok.mpr ⟨by decide, rfl⟩
  have hpush : ∃ body, pushString msg [1] = .ok body ∧ body.length = 5 := by
    have hfive := length_resized msg 5 0
    generalize resized msg 5 0 = five at hcut hfive
    have hname : ∃ body, copyTo five 0 [1] = .ok body ∧ body.length = 5 := by
      refine ⟨_, copyTo_eq_ok.mpr ⟨⟨Int.le_refl 0, ?_⟩, rfl⟩, ?_⟩
      · rw [hfive]
        decide
      · simp [hfive]
    obtain ⟨body, hbody, hlen'⟩ := hname
    have hsize : ∃ body', copyTo body 1 (toBytes (Int32.ofNat 1)) = .ok body' ∧ body'.length = 5 := by
      refine ⟨_, copyTo_eq_ok.mpr ⟨⟨by decide, ?_⟩, rfl⟩, ?_⟩
      · rw [hlen']
        decide
      · simp [hlen']
    obtain ⟨body', hbody', hlen''⟩ := hsize
    refine ⟨body', ?_, hlen''⟩
    rw [pushString, pushChars]
    simp only [hstart]
    exact bind_eq_ok.mpr ⟨1, by decide, bind_eq_ok.mpr ⟨five, hcut, bind_eq_ok.mpr ⟨[1], by decide,
      bind_eq_ok.mpr ⟨body, hbody, hbody'⟩⟩⟩⟩
  refine ⟨msg, hlen, hpush, ?_⟩
  obtain ⟨body, hok, hshort⟩ := hpush
  rintro (hthrow | ⟨body', hok', hprefix, _⟩)
  · rw [StringPush.push, hok] at hthrow
    cases hthrow
  · rw [StringPush.push, hok] at hok'
    cases hok'
    have := hprefix.length_le
    rw [hlen, hshort] at this
    exact absurd this (by decide)

end Serializer
