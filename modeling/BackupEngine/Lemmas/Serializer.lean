import BackupEngine.Serializer.Serializer

/-!
# What the stream operators do

Below `2^31` bytes every operator pushes or pops exactly the bytes of its value, so the operators are writers and readers in
the sense of `ByteStack`, and so are the loops over a vector. From `2^31` bytes on the string operators fault, and what they
return shorter than that was popped from below `2^31`.
-/

namespace Serializer

open Cpp ByteStack

/-- The bytes of a string: its characters and their number. -/
def encodeString (s : List UInt8) : List UInt8 := s ++ toBytes (Int32.ofNat s.length)

/-- `sizeof(int)` -/
@[simp] theorem sizeof_int32 : sizeof Int32 = 4 := rfl

/-- `sizeof(size_t)` -/
@[simp] theorem sizeof_uInt64 : sizeof UInt64 = 8 := rfl

/-- The characters and the `int` of their number. -/
@[simp] theorem length_encodeString (s : List UInt8) : (encodeString s).length = s.length + 4 := by
  simp [encodeString]

/-- Growing a vector appends fresh elements. -/
theorem resize_add {α : Type} (xs : List α) (k : Nat) (fresh : α) (h : xs.length + k ≤ maxSize) :
    resize xs (xs.length + k) fresh = .ok (xs ++ List.replicate k fresh) := by
  refine resize_eq_ok.mpr ⟨h, ?_⟩
  rw [resized, List.take_of_length_le (Nat.le_add_right _ _), Nat.add_sub_cancel_left]

/-- Shrinking a vector drops its end. -/
theorem resize_append {α : Type} (xs ys : List α) (fresh : α) (h : xs.length ≤ maxSize) :
    resize (xs ++ ys) xs.length fresh = .ok xs := by
  refine resize_eq_ok.mpr ⟨h, ?_⟩
  have hsub : xs.length - (xs ++ ys).length = 0 := by
    rw [List.length_append]
    omega
  rw [resized, List.take_left, hsub, List.replicate_zero, List.append_nil]

/-- The middle part of a buffer that ends with it. -/
theorem copyFrom_end (below bs : List UInt8) : copyFrom (below ++ bs) below.length bs.length = .ok bs := by
  simpa using copyFrom_append below bs []

/-- A `memcpy` over the end of a buffer. -/
theorem copyTo_end (below old bs : List UInt8) (h : old.length = bs.length) :
    copyTo (below ++ old) below.length bs = .ok (below ++ bs) := by
  simpa using copyTo_append below old [] bs h

/-! ## Values -/

section Values

variable {α : Type} [StandardLayout α]

/-- The bytes of a value go to the end. -/
theorem push_eq (msg : SerializedObject) (data : α) (h : msg.length + sizeof α ≤ maxSize) :
    push msg data = .ok (msg ++ toBytes data) := by
  rw [push, resize_add _ _ _ h, ok_bind, copyTo_end]
  simp

/-- They come back from there. -/
theorem pop_append (msg : SerializedObject) (data : α) (h : (msg ++ toBytes data).length ≤ maxSize) :
    pop (α := α) (msg ++ toBytes data) = .ok (data, msg) := by
  have hlen : (msg ++ toBytes data).length = msg.length + sizeof α := by simp
  have hi : sizeT ((msg ++ toBytes data).length - sizeof α) = msg.length := by
    unfold maxSize at h
    unfold sizeT
    omega
  have hfrom : copyFrom (msg ++ toBytes data) msg.length (sizeof α) = .ok (toBytes data) := by
    have := copyFrom_end msg (toBytes data)
    rwa [StandardLayout.length_toBytes] at this
  rw [pop, hi, hfrom, ok_bind, resize_append _ _ _ (by omega), ok_bind, StandardLayout.ofBytes_toBytes]
  rfl

/-- A value is pushed below any limit a vector has room for. -/
theorem write_writes_max (data : α) : Writes maxSize (write data) (toBytes data) := by
  intro B w h
  rw [List.length_append, StandardLayout.length_toBytes] at h
  rw [write, push_eq B data (Nat.le_of_lt h)]
  rfl

/-- The same below the limit of the strings. -/
theorem write_writes (data : α) : Writes (2 ^ 31) (write data) (toBytes data) := (write_writes_max data).mono (by decide)

/-- A value that was pushed is popped. -/
theorem read_reads (data : α) : Reads (2 ^ 31) (read α) (· = data) (toBytes data) := by
  intro B w h
  have hB : (B ++ toBytes data).length ≤ maxSize := by
    unfold maxSize
    omega
  refine ⟨data, w, ?_, rfl⟩
  rw [read, pop_append B data hB]
  rfl

end Values

/-! ## Strings -/

/-- A length that an `int` holds. -/
theorem toInt_ofNat {n : Nat} (h : n < 2 ^ 31) : (Int32.ofNat n).toInt = n := Int32.toInt_ofNat_of_lt h

/-- The string operators work as long as start and length of the string add up to an `int`. -/
theorem pushChars_eq (msg : SerializedObject) (data : List UInt8) (h : msg.length + data.length < 2 ^ 31) :
    pushChars msg data = .ok (msg ++ encodeString data) := by
  have hm := toInt_ofNat (n := msg.length) (by omega)
  have hd := toInt_ofNat (n := data.length) (by omega)
  have hsum : int ((msg.length : Int) + data.length) = .ok ((msg.length : Int) + data.length) :=
    int_of_inInt ⟨by omega, by omega⟩
  have hsize : sizeT ((msg.length : Int) + data.length + sizeof Int32) = msg.length + (data.length + 4) := by
    rw [sizeof_int32]
    unfold sizeT
    omega
  have hmax : msg.length + (data.length + 4) ≤ maxSize := by
    unfold maxSize
    omega
  have hname : copyFrom data 0 (sizeT data.length) = .ok data := by
    rw [sizeT_natCast (by omega)]
    exact copyFrom_end [] data
  have hrep : List.replicate (data.length + 4) (0 : UInt8) =
      List.replicate data.length 0 ++ List.replicate 4 0 := List.replicate_add _ _ _
  have hfirst : copyTo (msg ++ List.replicate (data.length + 4) 0) msg.length data =
      .ok (msg ++ data ++ List.replicate 4 0) := by
    rw [hrep, ← List.append_assoc]
    exact copyTo_append msg _ _ data (by simp)
  have hsecond : copyTo (msg ++ data ++ List.replicate 4 0) ((msg.length : Int) + data.length)
      (toBytes (Int32.ofNat data.length)) = .ok (msg ++ data ++ toBytes (Int32.ofNat data.length)) := by
    have := copyTo_end (msg ++ data) (List.replicate 4 0) (toBytes (Int32.ofNat data.length)) (by simp)
    rwa [List.length_append, Nat.cast_add] at this
  simp only [pushChars, hm, hd, hsum, ok_bind, hsize, resize_add _ _ _ hmax, hname, hfirst, hsecond]
  rw [encodeString, List.append_assoc]

/-- A string comes back from the end. -/
theorem popString_append (msg : SerializedObject) (data : List UInt8) (h : (msg ++ encodeString data).length < 2 ^ 31) :
    popString (msg ++ encodeString data) = .ok (data, msg) := by
  have hlen : msg.length + data.length + 4 < 2 ^ 31 := by
    rw [List.length_append, length_encodeString] at h
    omega
  have hende := toInt_ofNat h
  have hsub : (((msg ++ encodeString data).length : Int) - sizeof Int32) = (msg ++ data).length := by
    rw [List.length_append, length_encodeString, sizeof_int32, List.length_append]
    omega
  have hsize : copyFrom (msg ++ encodeString data) ((msg ++ data).length : Nat) (sizeof Int32) =
      .ok (toBytes (Int32.ofNat data.length)) := by
    rw [encodeString, ← List.append_assoc]
    exact copyFrom_end (msg ++ data) (toBytes (Int32.ofNat data.length))
  have hd := toInt_ofNat (n := data.length) (by omega)
  have hmax : data.length ≤ maxSize := by
    unfold maxSize
    omega
  have hres : resize ([] : List UInt8) (sizeT data.length) 0 = .ok (List.replicate data.length 0) := by
    rw [sizeT_natCast (by omega)]
    simpa using resize_add ([] : List UInt8) data.length 0 (by simpa using hmax)
  have hstart : ((msg ++ data).length : Int) - data.length = msg.length := by
    rw [List.length_append]
    omega
  have hdata : copyFrom (msg ++ encodeString data) msg.length data.length = .ok data := by
    rw [encodeString, ← List.append_assoc]
    exact copyFrom_append msg data _
  have hbody : resize (msg ++ encodeString data) (sizeT msg.length) 0 = .ok msg := by
    rw [sizeT_natCast (by omega)]
    exact resize_append _ _ _ (by unfold maxSize; omega)
  simp only [popString, hende, hsub, hsize, ok_bind, StandardLayout.ofBytes_toBytes, hd, hres, List.length_replicate, hstart,
    hdata, hbody]
  rfl

/-- A `std::string` is pushed. -/
theorem writeString_writes (data : List UInt8) : Writes (2 ^ 31) (writeString data) (encodeString data) := by
  intro B w h
  rw [List.length_append, length_encodeString] at h
  rw [writeString, pushString, pushChars_eq B data (by omega)]
  rfl

/-- A `const char*` is pushed in the same way. -/
theorem writeCString_writes (data : List UInt8) : Writes (2 ^ 31) (writeCString data) (encodeString data) := by
  intro B w h
  rw [List.length_append, length_encodeString] at h
  rw [writeCString, pushCString, pushChars_eq B data (by omega)]
  rfl

/-- A string that was pushed is popped. -/
theorem readString_reads (data : List UInt8) : Reads (2 ^ 31) readString (· = data) (encodeString data) := by
  intro B w h
  refine ⟨data, w, ?_, rfl⟩
  rw [readString, popString_append B data h]
  rfl

/-! ## Vectors -/

/-- A writer of some bytes need only be looked at where the bytes fit. -/
theorem writes_of_lt {p : Ser Unit} {bs : List UInt8} {L : Nat} (h : bs.length < L → Writes L p bs) : Writes L p bs := by
  intro B w hL
  refine h (Nat.lt_of_le_of_lt ?_ hL) B w hL
  rw [List.length_append]
  exact Nat.le_add_left _ _

/-- So it is for what is popped. -/
theorem reads_of_lt {α : Type} {p : Ser α} {Q : α → Prop} {bs : List UInt8} {L : Nat}
    (h : bs.length < L → Reads L p Q bs) : Reads L p Q bs := by
  intro B w hL
  refine h (Nat.lt_of_le_of_lt ?_ hL) B w hL
  rw [List.length_append]
  exact Nat.le_add_left _ _

/-- A computation beside the bytes that returned. -/
theorem lift_ok_bind {α γ : Type} (a : α) (f : α → Ser γ) : (lift (.ok a) >>= f) = f a := rfl

/-- The loop with a `size_t` bound that is an `int` runs that often. -/
theorem forUpTo_ofNat {γ : Type} {n : Nat} (hn : n < 2 ^ 31) (body : γ → Ser γ) (c : γ) :
    forUpTo (UInt64.ofNat n) body c = ByteStack.loop n body c := by
  have hnat : (UInt64.ofNat n).toNat = n := UInt64.toNat_ofNat_of_lt' (Nat.lt_trans hn (by decide))
  have hmin : min n (2 ^ 31) = n := by omega
  have hint : int (min (n : Int) (2 ^ 31)) = .ok (min (n : Int) (2 ^ 31)) := int_of_inInt ⟨by omega, by omega⟩
  rw [forUpTo, hnat, hmin, hint]
  funext s
  rw [ByteStack.bind_apply]
  cases ByteStack.loop n body c s <;> rfl

section Vectors

variable {α : Type} {enc : α → List UInt8}

/-- Elements of the same size. -/
theorem length_flatMap_const {k : Nat} {xs : List α} (h : ∀ a ∈ xs, (enc a).length = k) :
    (xs.flatMap enc).length = k * xs.length := by
  induction xs with
  | nil => rfl
  | cons x xs ih =>
    rw [List.flatMap_cons, List.length_append, h x List.mem_cons_self, ih fun y hy => h y (List.mem_cons_of_mem x hy),
      List.length_cons, Nat.mul_succ, Nat.add_comm]

/-- A vector has no more elements than bytes. -/
theorem length_le_flatMap (hpos : ∀ a, 0 < (enc a).length) (xs : List α) :
    xs.length ≤ (xs.reverse.flatMap enc).length := by
  have hcount : ∀ ys : List α, ys.length ≤ (ys.flatMap enc).length := by
    intro ys
    induction ys with
    | nil => exact Nat.zero_le _
    | cons y ys ih =>
      have := hpos y
      rw [List.flatMap_cons, List.length_append, List.length_cons]
      omega
  simpa using hcount xs.reverse

/-- A loop over the places of a vector from the last to the first goes over the elements in reverse order. -/
theorem forDown_writes {L : Nat} {out : α → Ser Unit} {xs : List α} (hout : ∀ a ∈ xs, Writes L (out a) (enc a))
    (hxs : xs.length < 2 ^ 31) {body : Nat → Ser Unit} (hbody : ∀ i, (hi : i < xs.length) → body i = out xs[i]) :
    Writes L (forDown xs.length body) (xs.reverse.flatMap enc) := by
  have hsize := toInt_ofNat hxs
  have hint : int ((xs.length : Int) - 1) = .ok ((xs.length : Int) - 1) := int_of_inInt ⟨by omega, by omega⟩
  have hloop : Writes L ((List.range xs.length).reverse.forM body)
      ((List.range xs.length).reverse.flatMap fun i => (xs[i]?.map enc).getD []) := by
    refine Writes.forM fun i hi => ?_
    have hlt : i < xs.length := List.mem_range.mp (List.mem_reverse.mp hi)
    rw [hbody i hlt, List.getElem?_eq_getElem hlt]
    exact hout xs[i] (List.getElem_mem hlt)
  have hbytes : ((List.range xs.length).reverse.flatMap fun i => (xs[i]?.map enc).getD []) = xs.reverse.flatMap enc := by
    rw [List.flatMap_def, List.flatMap_def, List.map_reverse, List.map_reverse]
    congr 2
    apply List.ext_getElem (by simp)
    intro i h₁ h₂
    have hlt : i < xs.length := by simpa using h₂
    simp [hlt]
  rw [hbytes] at hloop
  simpa only [forDown, hsize, hint, lift_ok_bind, Int.toNat_natCast] using hloop

/-- The bytes of a vector: its elements from the last to the first, then their number. -/
def encodeAll (enc : α → List UInt8) (xs : List α) : List UInt8 :=
  xs.reverse.flatMap enc ++ toBytes (Int32.ofNat xs.length)

/-- The same with the number of elements behind them. -/
theorem length_le_encodeAll (hpos : ∀ a, 0 < (enc a).length) (xs : List α) :
    xs.length ≤ (encodeAll enc xs).length := by
  have := length_le_flatMap hpos xs
  rw [encodeAll, List.length_append]
  omega

/-- A vector is pushed below any limit on its bytes, if its length is an `int`. -/
theorem writeAll_writes_of_le {L : Nat} {out : α → Ser Unit} {xs : List α} (hL : L ≤ maxSize) (hxs : xs.length < 2 ^ 31)
    (hout : ∀ a ∈ xs, Writes L (out a) (enc a)) : Writes L (writeAll out xs) (encodeAll enc xs) := by
  refine Writes.bind (forDown_writes hout hxs fun i hi => ?_) ((write_writes_max _).mono hL)
  have helem : elemAt xs i = .ok xs[i] := elemAt_eq_ok.mpr (List.getElem?_eq_getElem hi)
  rw [helem, lift_ok_bind]

/-- Below the limit of the strings the length is an `int`. -/
theorem writeAll_writes {out : α → Ser Unit} {xs : List α} (hpos : ∀ a, 0 < (enc a).length)
    (hout : ∀ a ∈ xs, Writes (2 ^ 31) (out a) (enc a)) : Writes (2 ^ 31) (writeAll out xs) (encodeAll enc xs) := by
  refine writes_of_lt fun hL => ?_
  exact writeAll_writes_of_le (by decide) (Nat.lt_of_le_of_lt (length_le_encodeAll hpos xs) hL) hout

/-- Bodies that agree on the elements. -/
theorem forM_congr {f g : α → Ser Unit} {l : List α} (h : ∀ a ∈ l, f a = g a) : l.forM f = l.forM g := by
  induction l with
  | nil => rfl
  | cons a l ih =>
    have htail := ih fun b hb => h b (List.mem_cons_of_mem a hb)
    change (f a >>= fun _ => l.forM f) = (g a >>= fun _ => l.forM g)
    rw [h a List.mem_cons_self, htail]

/-- The loop over the places goes no further than the vector. -/
theorem forDown_congr {n : Nat} {body body' : Nat → Ser Unit} (h : ∀ i, i < n → body i = body' i) :
    forDown n body = forDown n body' := by
  have hle : (Int32.ofNat n).toInt.toNat ≤ n := by
    rw [Int32.toInt_ofNat', Int32.size, Int.bmod_def]
    split <;> omega
  have hloop : (List.range (Int32.ofNat n).toInt.toNat).reverse.forM body =
      (List.range (Int32.ofNat n).toInt.toNat).reverse.forM body' :=
    forM_congr fun i hi => h i (Nat.lt_of_lt_of_le (List.mem_range.mp (List.mem_reverse.mp hi)) hle)
  simp only [forDown, hloop]

/-- A vector is pushed like one whose elements are pushed alike. -/
theorem writeAll_map {out : α → Ser Unit} {f : α → α} {xs : List α} (h : ∀ x ∈ xs, out (f x) = out x) :
    writeAll out (xs.map f) = writeAll out xs := by
  have hplaces : forDown xs.length (fun i => lift (elemAt (xs.map f) i) >>= out) =
      forDown xs.length (fun i => lift (elemAt xs i) >>= out) := by
    refine forDown_congr fun i hi => ?_
    have hmap : elemAt (xs.map f) i = .ok (f xs[i]) := elemAt_eq_ok.mpr (by simp [hi])
    have helem : elemAt xs i = .ok xs[i] := elemAt_eq_ok.mpr (List.getElem?_eq_getElem hi)
    rw [hmap, helem, lift_ok_bind, lift_ok_bind, h _ (List.getElem_mem hi)]
  simp only [writeAll, List.length_map, hplaces]

/-- A vector is read element by element, each as `R` says. -/
theorem readAll_reads {γ : Type} {next : Ser γ} {R : α → γ → Prop} {xs : List α} (hpos : ∀ a, 0 < (enc a).length)
    (hnext : ∀ a ∈ xs, Reads (2 ^ 31) next (R a) (enc a)) :
    Reads (2 ^ 31) (readAll next []) (List.Forall₂ R xs) (encodeAll enc xs) := by
  refine reads_of_lt fun hL => ?_
  have hxs := Nat.lt_of_le_of_lt (length_le_encodeAll hpos xs) hL
  refine (read_reads (Int32.ofNat xs.length)).bind_eq ?_
  rw [forUp, toInt_ofNat hxs, Int.toNat_natCast]
  exact Reads.loop_append xs hnext

/-- A vector of values is read back. -/
theorem readAll_reads_eq {next : Ser α} (hpos : ∀ a, 0 < (enc a).length) (hnext : ∀ a, Reads (2 ^ 31) next (· = a) (enc a))
    (xs : List α) : Reads (2 ^ 31) (readAll next []) (· = xs) (encodeAll enc xs) := by
  refine (readAll_reads (R := fun a b => b = a) hpos fun a _ => hnext a).mono fun ys hys => ?_
  exact (List.forall₂_eq_eq_eq ▸ hys.flip : ys = xs)

end Vectors

/-! ## Operators that have returned -/

/-- An `int` made of a length below `2^32` that is not negative is the length. -/
theorem toInt_ofNat_nonneg {n : Nat} (hn : n < 2 ^ 32) (h : 0 ≤ (Int32.ofNat n).toInt) : n < 2 ^ 31 := by
  rw [Int32.toInt_ofNat', Int32.size, Int.bmod_def] at h
  split at h <;> omega

/-- A size made of an `int` is too large for any vector if the `int` is negative. -/
theorem nonneg_of_sizeT_le {n : Int} (hn : -2 ^ 31 ≤ n) (h : sizeT n ≤ maxSize) : 0 ≤ n := by
  unfold sizeT maxSize at h
  omega

/-- Whatever was there, less than `2^31 + 4` bytes are after a string was pushed. -/
theorem pushChars_length {msg data r : List UInt8} (h : pushChars msg data = .ok r) : r.length < 2 ^ 31 + 4 := by
  simp only [pushChars] at h
  obtain ⟨sum, hsum, h⟩ := bind_eq_ok.mp h
  obtain ⟨body, hbody, h⟩ := bind_eq_ok.mp h
  obtain ⟨name, _, h⟩ := bind_eq_ok.mp h
  obtain ⟨body', hbody', h⟩ := bind_eq_ok.mp h
  obtain ⟨⟨hlow, hhigh⟩, hexact⟩ := int_eq_ok.mp hsum
  obtain ⟨hmax, hres⟩ := resize_eq_ok.mp hbody
  rw [length_copyTo h, length_copyTo hbody', ← hres, length_resized]
  rw [hexact] at hlow hhigh
  rw [sizeof_int32] at hmax ⊢
  unfold sizeT maxSize at *
  omega

/-- A string whose length is negative as an `int` is not pushed onto anything. -/
theorem pushChars_data_lt {msg data r : List UInt8} (hdata : data.length < 2 ^ 32) (h : pushChars msg data = .ok r) :
    data.length < 2 ^ 31 := by
  simp only [pushChars] at h
  obtain ⟨sum, _, h⟩ := bind_eq_ok.mp h
  obtain ⟨body, _, h⟩ := bind_eq_ok.mp h
  obtain ⟨name, hname, _⟩ := bind_eq_ok.mp h
  have hle := (copyFrom_eq_ok.mp hname).1.2
  refine toInt_ofNat_nonneg hdata (nonneg_of_sizeT_le (Int32.le_toInt _) ?_)
  unfold maxSize
  omega

/-- A push that returned had room for the characters. -/
theorem pushChars_ok {msg data r : List UInt8} (hmsg : msg.length < 2 ^ 32) (hdata : data.length < 2 ^ 32)
    (h : pushChars msg data = .ok r) : msg.length + data.length < 2 ^ 31 := by
  have hsize := pushChars_data_lt hdata h
  simp only [pushChars] at h
  obtain ⟨sum, hsum, h⟩ := bind_eq_ok.mp h
  obtain ⟨body, _, h⟩ := bind_eq_ok.mp h
  obtain ⟨name, _, h⟩ := bind_eq_ok.mp h
  obtain ⟨body', hbody, _⟩ := bind_eq_ok.mp h
  have hstart := toInt_ofNat_nonneg hmsg (copyTo_eq_ok.mp hbody).1.1
  have hint := (int_eq_ok.mp hsum).1
  rw [toInt_ofNat hstart, toInt_ofNat hsize] at hint
  have := hint.2
  omega

/-- The length of a string is kept as an `int`: what is pushed of a longer one is what that length leaves of it. -/
theorem pushChars_cut {msg data r : List UInt8} (h : pushChars msg data = .ok r) :
    pushChars msg (data.take (data.length % 2 ^ 32)) = .ok r := by
  have hlen : (data.take (data.length % 2 ^ 32)).length = data.length % 2 ^ 32 := by
    rw [List.length_take, Nat.min_eq_left (Nat.mod_le _ _)]
  have hsize : Int32.ofNat (data.take (data.length % 2 ^ 32)).length = Int32.ofNat data.length := by
    rw [hlen]
    refine Int32.toInt_inj.mp ?_
    rw [Int32.toInt_ofNat', Int32.toInt_ofNat', Int32.size, Int.bmod_def, Int.bmod_def]
    split <;> split <;> omega
  simp only [pushChars] at h ⊢
  rw [hsize]
  obtain ⟨sum, hsum, h⟩ := bind_eq_ok.mp h
  obtain ⟨body, hbody, h⟩ := bind_eq_ok.mp h
  obtain ⟨name, hname, h⟩ := bind_eq_ok.mp h
  obtain ⟨body', hbody', hlast⟩ := bind_eq_ok.mp h
  obtain ⟨⟨_, hle⟩, hcopied⟩ := copyFrom_eq_ok.mp hname
  have hfit : sizeT (Int32.ofNat data.length).toInt ≤ maxSize := by
    have hbound := (resize_eq_ok.mp hbody).1
    have hinside := (copyTo_eq_ok.mp hbody').1.2
    have hstart := (copyTo_eq_ok.mp hbody').1.1
    rw [← (resize_eq_ok.mp hbody).2, length_resized, ← hcopied, List.length_take, List.length_drop] at hinside
    omega
  have hnonneg := nonneg_of_sizeT_le (Int32.le_toInt _) hfit
  have htoInt : (Int32.ofNat data.length).toInt = (data.length % 2 ^ 32 : Nat) := by
    rw [Int32.toInt_ofNat', Int32.size, Int.bmod_def] at hnonneg ⊢
    split at hnonneg <;> split <;> omega
  refine bind_eq_ok.mpr ⟨sum, hsum, bind_eq_ok.mpr ⟨body, hbody, bind_eq_ok.mpr ⟨name, ?_,
    bind_eq_ok.mpr ⟨body', hbody', hlast⟩⟩⟩⟩
  have hcast : sizeT ((data.length % 2 ^ 32 : Nat) : Int) = data.length % 2 ^ 32 := by
    unfold sizeT
    omega
  rw [htoInt, hcast] at hcopied ⊢
  refine copyFrom_eq_ok.mpr ⟨⟨le_refl _, by rw [hlen]; omega⟩, ?_⟩
  rw [← hcopied]
  simp

/-- A string that was pushed above less than `2^32` bytes is there, and its start and length add up to an `int`. -/
theorem pushChars_commits {msg data r : List UInt8} (hmsg : msg.length < 2 ^ 32) (hdata : data.length < 2 ^ 32)
    (h : pushChars msg data = .ok r) : r = msg ++ encodeString data ∧ r.length < 2 ^ 31 + 4 := by
  have hlt := pushChars_ok hmsg hdata h
  rw [pushChars_eq msg data hlt] at h
  cases h
  refine ⟨rfl, ?_⟩
  rw [List.length_append, length_encodeString]
  omega

/-- What a string was pushed above is cut to the length that fits an `int`. -/
theorem pushChars_eq_take {msg data r : List UInt8} (hdata : data.length < 2 ^ 31) (h : pushChars msg data = .ok r) :
    r = msg.take (Int32.ofNat msg.length).toInt.toNat ++ encodeString data := by
  have hle : (Int32.ofNat msg.length).toInt.toNat ≤ msg.length := by
    rw [Int32.toInt_ofNat', Int32.size, Int.bmod_def]
    split <;> omega
  simp only [pushChars, toInt_ofNat hdata] at h
  obtain ⟨sum, hsum, h⟩ := bind_eq_ok.mp h
  obtain ⟨body, hbody, h⟩ := bind_eq_ok.mp h
  obtain ⟨name, hname, h⟩ := bind_eq_ok.mp h
  obtain ⟨body', hbody', hlast⟩ := bind_eq_ok.mp h
  clear h
  obtain ⟨hint, rfl⟩ := int_eq_ok.mp hsum
  obtain ⟨⟨hstart, _⟩, hcopied⟩ := copyTo_eq_ok.mp hbody'
  generalize hn : (Int32.ofNat msg.length).toInt = n at *
  obtain ⟨k, rfl⟩ := Int.eq_ofNat_of_zero_le hstart
  have hsize : sizeT ((k : Int) + data.length + sizeof Int32) = k + data.length + 4 := by
    have := hint.2
    rw [sizeof_int32]
    unfold sizeT
    omega
  have hname' : name = data := by
    have := (copyFrom_eq_ok.mp hname).2
    rw [sizeT_natCast hdata] at this
    simpa using this.symm
  have hlen : body.length = k + data.length + 4 := by
    rw [← (resize_eq_ok.mp hbody).2, length_resized, hsize]
  have hbelow : body.take k = msg.take k := by
    rw [← (resize_eq_ok.mp hbody).2, resized, hsize, List.take_append_of_le_length, List.take_take, Nat.min_eq_left]
    · omega
    · rw [List.length_take]
      simp only [Int.toNat_natCast] at hle
      omega
  rw [Int.toNat_natCast, hname', hbelow] at hcopied
  rw [Int.toNat_natCast] at hle ⊢
  obtain ⟨_, hr⟩ := copyTo_eq_ok.mp hlast
  have hend : ((k : Int) + data.length).toNat = (msg.take k ++ data).length := by
    rw [List.length_append, List.length_take]
    omega
  have hlen' : body'.length = k + data.length + 4 := (length_copyTo hbody').trans hlen
  have htail : body'.drop ((msg.take k ++ data).length + (toBytes (Int32.ofNat data.length)).length) = [] := by
    rw [List.drop_eq_nil_iff, hlen', StandardLayout.length_toBytes, List.length_append, List.length_take, sizeof_int32]
    omega
  rw [hend, htail, List.append_nil, ← hcopied, List.take_left] at hr
  rw [← hr, encodeString, List.append_assoc]

/-- So it is for a `std::string`. -/
theorem writeString_commits {K : Nat} (hK : K ≤ 2 ^ 32) {data : List UInt8} (hdata : data.length < 2 ^ 32) :
    Commits K (2 ^ 31 + 4) (writeString data) (encodeString data) := by
  intro B w r hB h
  obtain ⟨body, hbody, hr⟩ := Cpp.bind_eq_ok.mp h
  cases hr
  obtain ⟨rfl, hlen⟩ := pushChars_commits (Nat.lt_of_lt_of_le hB hK) hdata hbody
  exact ⟨rfl, hlen⟩

/-- The same for a string of any length. -/
theorem writeString_cut_commits {K : Nat} (hK : K ≤ 2 ^ 32) (data : List UInt8) :
    Commits K (2 ^ 31 + 4) (writeString data) (encodeString (data.take (data.length % 2 ^ 32))) := by
  intro B w r hB h
  obtain ⟨body, hbody, hr⟩ := Cpp.bind_eq_ok.mp h
  have hlen : (data.take (data.length % 2 ^ 32)).length < 2 ^ 32 := by
    rw [List.length_take]
    omega
  exact writeString_commits hK hlen B w r hB (Cpp.bind_eq_ok.mpr ⟨body, pushChars_cut hbody, hr⟩)

/-- And for a `const char*`. -/
theorem writeCString_commits {K : Nat} (hK : K ≤ 2 ^ 32) {data : List UInt8} (hdata : data.length < 2 ^ 32) :
    Commits K (2 ^ 31 + 4) (writeCString data) (encodeString data) := by
  intro B w r hB h
  obtain ⟨body, hbody, hr⟩ := Cpp.bind_eq_ok.mp h
  cases hr
  obtain ⟨rfl, hlen⟩ := pushChars_commits (Nat.lt_of_lt_of_le hB hK) hdata hbody
  exact ⟨rfl, hlen⟩

/-- A string that was popped came from a body whose length is an `int`. -/
theorem popString_ok {msg body data : List UInt8} (hmsg : msg.length < 2 ^ 32) (h : popString msg = .ok (data, body)) :
    msg.length < 2 ^ 31 ∧ body.length + 4 ≤ msg.length := by
  simp only [popString] at h
  obtain ⟨bytes, hbytes, h⟩ := bind_eq_ok.mp h
  obtain ⟨fresh, hfresh, h⟩ := bind_eq_ok.mp h
  obtain ⟨chars, hchars, h⟩ := bind_eq_ok.mp h
  obtain ⟨rest, hrest, h⟩ := bind_eq_ok.mp h
  cases h
  have hende := (copyFrom_eq_ok.mp hbytes).1.1
  rw [sizeof_int32] at hende
  have hlt := toInt_ofNat_nonneg hmsg (by omega)
  have hname := nonneg_of_sizeT_le (Int32.le_toInt _) (resize_eq_ok.mp hfresh).1
  have hstart := (copyFrom_eq_ok.mp hchars).1.1
  rw [toInt_ofNat hlt, sizeof_int32] at hstart hrest
  have hlen : body.length = sizeT ((msg.length : Int) - (4 : Nat) - (ofBytes bytes : Int32).toInt) := by
    rw [← (resize_eq_ok.mp hrest).2, length_resized]
  rw [sizeT_of_nonneg hstart (by omega)] at hlen
  omega

/-- A value that came back took its bytes. -/
theorem pop_ok {α : Type} [StandardLayout α] {msg body : List UInt8} {data : α} (h : pop msg = .ok (data, body)) :
    body.length + sizeof α ≤ msg.length := by
  simp only [pop] at h
  obtain ⟨bytes, hbytes, h⟩ := bind_eq_ok.mp h
  obtain ⟨rest, hrest, h⟩ := bind_eq_ok.mp h
  cases h
  have hle := (copyFrom_eq_ok.mp hbytes).1.2
  have hlen : body.length = sizeT ((msg.length : Int) - sizeof α) := by
    rw [← (resize_eq_ok.mp hrest).2, length_resized]
  omega

section Shrinks

variable {I : World → Prop}

/-- A value takes its bytes. -/
theorem read_shrinks (α : Type) [StandardLayout α] : Shrinks I (2 ^ 31) (read α) (sizeof α) fun _ => True := by
  intro B w a B' w' _ hI h
  obtain ⟨⟨data, body⟩, hpop, hr⟩ := Cpp.bind_eq_ok.mp h
  cases hr
  exact ⟨pop_ok hpop, hI, True.intro⟩

/-- A string takes four bytes at least. -/
theorem readString_shrinks : Shrinks I (2 ^ 31) readString 4 fun _ => True := by
  intro B w a B' w' hB hI h
  obtain ⟨⟨data, body⟩, hpop, hr⟩ := Cpp.bind_eq_ok.mp h
  cases hr
  exact ⟨(popString_ok (by omega) hpop).2, hI, True.intro⟩

/-- What is done beside the bytes takes none. -/
theorem outside_shrinks {α : Type} {L : Nat} {f : World → Comp (α × World)} {Q : α → Prop}
    (hf : ∀ w a w', I w → f w = .ok (a, w') → I w' ∧ Q a) : Shrinks I L (outside f) 0 Q := by
  intro B w a B' w' _ hI h
  obtain ⟨⟨b, w₁⟩, hb, hr⟩ := Cpp.bind_eq_ok.mp h
  cases hr
  exact ⟨Nat.le_refl _, hf w a w' hI hb⟩

/-- A computation takes none. -/
theorem lift_keeps {α : Type} {L : Nat} (c : Comp α) : Keeps I L (lift c) := by
  intro B w a B' w' _ hI h
  obtain ⟨b, _, hr⟩ := Cpp.bind_eq_ok.mp h
  cases hr
  exact ⟨Nat.le_refl _, hI, True.intro⟩

/-- A vector whose elements are read by a reader that ensures `Q`. -/
theorem readAll_shrinks {α : Type} {next : Ser α} {Q : α → Prop} (h : Shrinks I (2 ^ 31) next 0 Q) {xs : List α}
    (hxs : ∀ x ∈ xs, Q x) : Shrinks I (2 ^ 31) (readAll next xs) 4 fun ys => ∀ y ∈ ys, Q y := by
  refine Shrinks.bind (m := 0) (read_shrinks Int32) fun size _ => ?_
  refine (Shrinks.loop (k := 0) (fun ys hys => h.bind (m := 0) fun x hx => Shrinks.pure fun y hy => ?_)
    size.toInt.toNat xs hxs).mono (Nat.zero_le _) fun _ h => h
  rcases List.mem_append.mp hy with hy | hy
  · exact hys y hy
  · exact List.mem_singleton.mp hy ▸ hx

/-- A loop takes what its rounds take; it makes `2^31` rounds at most before its counter overflows. -/
theorem forUpTo_shrinks {γ : Type} {L k : Nat} {body : γ → Ser γ} {Q : γ → Prop}
    (h : ∀ c, Q c → Shrinks I L (body c) k Q) (size : UInt64) {c : γ} (hc : Q c) :
    Shrinks I L (forUpTo size body c) (min size.toNat (2 ^ 31) * k) Q := by
  refine Shrinks.bind (m := 0) (Shrinks.loop h _ c hc) fun c' hc' => ?_
  exact (lift_keeps _).bind (m := 0) fun _ _ => Shrinks.pure hc'

end Shrinks

end Serializer
