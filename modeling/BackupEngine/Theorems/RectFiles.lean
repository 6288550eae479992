import BackupEngine.Engine.InstancedTeilSpriteFactory

/-!
# Description files

The builders take every field of a line for a number that begins with one, and where a line has no more fields they take the
last one again. They are right on the files whose lines have all their fields, and reject a file only for a field that does
not begin with a number.
-/

namespace Factory

open Cpp

/-! ## Lines -/

/-- The fields of a line. -/
def fieldsOf (line : Line) : List Line := Separated.fields 44 32 line

/-- The line holds the integers: they are its first fields, and there is nothing else in these. -/
def Holds (line : Line) (ns : List Int) : Prop :=
  List.Forall₂ (fun f n => stoi f = some (n, [])) ((fieldsOf line).take ns.length) ns

/-- The first `k` fields of the line, as far as it has them, begin with integers. -/
def converts (k : Nat) (line : Line) : Bool := ((fieldsOf line).take k).all fun f => (stoi f).isSome

/-- The numbers that the first `k` fields begin with, the last field again for those that are missing. -/
def numbersOf : Nat → List Line → Option (List Int)
  | 0, _ => some []
  | _ + 1, [] => none
  | k + 1, f :: fs => do
    let n ← (stoi f).map Prod.fst
    let ns ← numbersOf k (if fs = [] then [f] else fs)
    return n :: ns

/-- White space before a number is skipped. -/
theorem stoi_space (f : Line) : stoi (32 :: f) = stoi f := rfl

theorem numbersOf_space (k : Nat) (f : Line) (fs : List Line) : numbersOf k ((32 :: f) :: fs) = numbersOf k (f :: fs) := by
  induction k with
  | zero => rfl
  | succ k ih =>
    rw [numbersOf, numbersOf, stoi_space]
    by_cases hfs : fs = []
    · subst hfs
      rw [if_pos rfl, if_pos rfl, ih]
    · rw [if_neg hfs, if_neg hfs]

/-- What a number is read from: the first field; the fields that are left are those behind it, or it once more. -/
theorem nextInt_spec (line : Line) : ∃ f fs rest, fieldsOf line = f :: fs ∧
    nextInt line = (match stoi f with
      | some (n, _) => .ok (n, rest)
      | none => .error .thrown) ∧
    ∀ k, numbersOf k (fieldsOf rest) = numbersOf k (if fs = [] then [f] else fs) := by
  unfold nextInt
  cases hfind : find? line with
  | none =>
    have hfields : fieldsOf line = [line] := Separated.fields_of_find?_none hfind
    refine ⟨line, [], line, hfields, rfl, fun k => ?_⟩
    rw [hfields, if_pos rfl]
  | some i =>
    obtain ⟨hfields, hdrop⟩ := Separated.fields_of_find?_some hfind
    refine ⟨line.take i, fieldsOf (line.drop (i + 2)), line.drop (i + 1), hfields, rfl, fun k => ?_⟩
    obtain ⟨g, gs, hg, hcons⟩ := Separated.fields_cons (a := 44) (b := 32) (x := (32 : UInt8)) (by decide)
      (line.drop (i + 2))
    have hg : fieldsOf (line.drop (i + 2)) = g :: gs := hg
    rw [if_neg (by rw [hg]; nofun), hg, hdrop, fieldsOf, hcons, numbersOf_space]

/-- Several numbers of a line. -/
def readInts : Nat → Line → Comp (List Int)
  | 0, _ => return []
  | k + 1, line => do
    let (n, line) ← nextInt line
    let ns ← readInts k line
    return n :: ns

theorem readInts_eq (k : Nat) (line : Line) :
    readInts k line = match numbersOf k (fieldsOf line) with
      | some ns => .ok ns
      | none => .error .thrown := by
  induction k generalizing line with
  | zero => rfl
  | succ k ih =>
    obtain ⟨f, fs, rest, hfields, hnext, hrest⟩ := nextInt_spec line
    rw [readInts, hnext, hfields, numbersOf]
    cases hf : stoi f with
    | none => rfl
    | some r =>
      simp only [ok_bind, ih, hrest, Option.map_some, Option.bind_eq_bind, Option.bind_some]
      cases numbersOf k (if fs = [] then [f] else fs) <;> rfl

theorem length_of_numbersOf {k : Nat} {fs : List Line} {ns : List Int} (h : numbersOf k fs = some ns) : ns.length = k := by
  induction k generalizing fs ns with
  | zero =>
    cases h
    rfl
  | succ k ih =>
    cases fs with
    | nil => cases h
    | cons f fs =>
      obtain ⟨n, _, h⟩ := Option.bind_eq_some_iff.mp h
      obtain ⟨ns', hns, h⟩ := Option.bind_eq_some_iff.mp h
      cases h
      rw [List.length_cons, ih hns]

/-- The numbers can be read exactly when the fields begin with some. -/
theorem numbersOf_isSome_iff (k : Nat) {fs : List Line} (hne : fs ≠ []) :
    (numbersOf k fs).isSome ↔ ∀ f ∈ fs.take k, (stoi f).isSome := by
  induction k generalizing fs with
  | zero => simp [numbersOf]
  | succ k ih =>
    obtain ⟨f, fs, rfl⟩ := List.exists_cons_of_ne_nil hne
    have hstep : (numbersOf (k + 1) (f :: fs)).isSome ↔
        (stoi f).isSome ∧ (numbersOf k (if fs = [] then [f] else fs)).isSome := by
      rw [numbersOf]
      cases stoi f with
      | none => simp
      | some r => cases numbersOf k (if fs = [] then [f] else fs) <;> simp
    rw [hstep]
    by_cases hfs : fs = []
    · subst hfs
      rw [if_pos rfl, ih (by nofun), List.take_succ_cons, List.take_nil]
      refine ⟨fun h => by simpa using h.1, fun h => ⟨h f (by simp), fun g hg => ?_⟩⟩
      obtain rfl := List.mem_singleton.mp (List.mem_of_mem_take hg)
      exact h g (by simp)
    · rw [if_neg hfs, ih hfs, List.take_succ_cons, List.forall_mem_cons]

theorem numbersOf_isSome (k : Nat) (line : Line) : (numbersOf k (fieldsOf line)).isSome ↔ converts k line = true := by
  have h := numbersOf_isSome_iff k (Separated.fields_ne_nil (a := 44) (b := 32) line)
  rw [converts, List.all_eq_true]
  exact h

/-- The integers a line holds are the numbers read from it. -/
theorem numbersOf_of_forall₂ {fs : List Line} {ns : List Int}
    (h : List.Forall₂ (fun f n => stoi f = some (n, [])) (fs.take ns.length) ns) : numbersOf ns.length fs = some ns := by
  induction ns generalizing fs with
  | nil => rfl
  | cons n ns ih =>
    cases fs with
    | nil => cases h
    | cons f fs =>
      rw [List.length_cons, List.take_succ_cons] at h
      cases h with
      | cons hf hfs =>
        have hrest : numbersOf ns.length (if fs = [] then [f] else fs) = some ns := by
          cases ns with
          | nil => rfl
          | cons m ms =>
            have hne : fs ≠ [] := by
              rintro rfl
              cases hfs
            rw [if_neg hne]
            exact ih hfs
        rw [List.length_cons, numbersOf, hf, hrest]
        rfl

/-- What a line that converts holds, if it holds integers, is what is read from it. -/
theorem Holds.numbersOf {line : Line} {ns : List Int} (h : Holds line ns) :
    numbersOf ns.length (fieldsOf line) = some ns := numbersOf_of_forall₂ h

/-! ## Entries -/

section Entries

variable {E : Type} {entry : Int → Int → Int → Int → Comp E}

/-- The entry of a line. -/
def lineEntry (entry : Int → Int → Int → Int → Comp E) (line : Line) : Comp E := do
  let (a, line) ← nextInt line
  let (b, line) ← nextInt line
  let (c, line) ← nextInt line
  let (d, _) ← nextInt line
  entry a b c d

/-- What is made of a list of two numbers. -/
def ofTwo {R : Type} (f : Int → Int → Comp R) : List Int → Comp R
  | [a, b] => f a b
  | _ => .error .thrown

/-- What is made of a list of four numbers. -/
def ofFour {R : Type} (f : Int → Int → Int → Int → Comp R) : List Int → Comp R
  | [a, b, c, d] => f a b c d
  | _ => .error .thrown

theorem eq_of_length_two {ns : List Int} (h : ns.length = 2) : ∃ a b, ns = [a, b] := List.length_eq_two.mp h

theorem eq_of_length_four {ns : List Int} (h : ns.length = 4) : ∃ a b c d, ns = [a, b, c, d] := by
  rcases ns with _ | ⟨a, ns⟩
  · cases h
  · obtain ⟨b, c, d, rfl⟩ := List.length_eq_three.mp (Nat.succ.inj h)
    exact ⟨a, b, c, d, rfl⟩

/-- A line is rejected, or its entry is made of the four numbers read from it. -/
theorem lineEntry_cases (entry : Int → Int → Int → Int → Comp E) (line : Line) :
    (converts 4 line = false ∧ lineEntry entry line = .error .thrown) ∨
    ∃ a b c d, converts 4 line = true ∧ numbersOf 4 (fieldsOf line) = some [a, b, c, d] ∧
      lineEntry entry line = entry a b c d := by
  have hread : readInts 4 line >>= ofFour entry = lineEntry entry line := by
    simp only [readInts, lineEntry, bind_assoc, pure_bind, ofFour]
  rw [← hread, readInts_eq]
  cases hnumbers : numbersOf 4 (fieldsOf line) with
  | none =>
    refine .inl ⟨?_, rfl⟩
    rw [← Bool.not_eq_true, ← numbersOf_isSome, hnumbers]
    exact Bool.false_ne_true
  | some ns =>
    have hconverts : converts 4 line = true := (numbersOf_isSome 4 line).mp (by rw [hnumbers]; rfl)
    obtain ⟨a, b, c, d, rfl⟩ := eq_of_length_four (length_of_numbersOf hnumbers)
    exact .inr ⟨a, b, c, d, hconverts, rfl, rfl⟩

/-- The loop of a builder collects the entries. -/
theorem foldlM_push {f : Line → Comp E} (ls : List Line) (toRet : List E) :
    ls.foldlM (fun toRet line => do
      let tempf ← f line
      return toRet ++ [tempf]) toRet = ls.mapM f >>= fun es => .ok (toRet ++ es) := by
  induction ls generalizing toRet with
  | nil => simp
  | cons l ls ih =>
    rw [List.foldlM_cons, List.mapM_cons]
    cases f l with
    | error e => rfl
    | ok e =>
      simp only [ok_bind, pure_bind, ih]
      cases ls.mapM f with
      | error e => rfl
      | ok es => simp

/-- The entries of the lines before the first that is rejected can be computed. -/
def NoOverflow (entry : Int → Int → Int → Int → Comp E) (ls : List Line) : Prop :=
  ∀ line ∈ ls.takeWhile (converts 4), ∀ a b c d, numbersOf 4 (fieldsOf line) = some [a, b, c, d] →
    ∃ e, entry a b c d = .ok e

/-- The three ways the loop ends. -/
theorem entries_cases (hentry : ∀ a b c d, entry a b c d = .error .overflow ∨ ∃ e, entry a b c d = .ok e) (ls : List Line) :
    (¬NoOverflow entry ls ∧ ls.mapM (lineEntry entry) = .error .overflow) ∨
    (NoOverflow entry ls ∧ (∃ line ∈ ls, converts 4 line = false) ∧ ls.mapM (lineEntry entry) = .error .thrown) ∨
    (NoOverflow entry ls ∧ (∀ line ∈ ls, converts 4 line = true) ∧ ∃ es, ls.mapM (lineEntry entry) = .ok es) := by
  induction ls with
  | nil => exact .inr (.inr ⟨by simp [NoOverflow], by simp, [], rfl⟩)
  | cons l ls ih =>
    rw [List.mapM_cons]
    rcases lineEntry_cases entry l with ⟨hconverts, hl⟩ | ⟨a, b, c, d, hconverts, hnumbers, hl⟩
    · refine .inr (.inl ⟨?_, ⟨l, List.mem_cons_self, hconverts⟩, by rw [hl]; rfl⟩)
      rw [NoOverflow, List.takeWhile_cons_of_neg (by rw [hconverts]; nofun)]
      exact fun _ h => absurd h List.not_mem_nil
    have hno : NoOverflow entry (l :: ls) ↔ (∃ e, entry a b c d = .ok e) ∧ NoOverflow entry ls := by
      rw [NoOverflow, List.takeWhile_cons_of_pos hconverts, List.forall_mem_cons, hnumbers]
      refine and_congr ⟨fun h => h a b c d rfl, ?_⟩ .rfl
      rintro h _ _ _ _ heq
      cases heq
      exact h
    rcases hentry a b c d with hover | ⟨e, he⟩
    · refine .inl ⟨fun h => ?_, by rw [hl, hover]; rfl⟩
      obtain ⟨e, he⟩ := (hno.mp h).1
      rw [hover] at he
      cases he
    · rw [hl, he, ok_bind]
      rcases ih with ⟨hnot, hls⟩ | ⟨hn, ⟨line, hline, hbad⟩, hls⟩ | ⟨hn, hall, es, hls⟩
      · exact .inl ⟨fun h => hnot (hno.mp h).2, by rw [hls]; rfl⟩
      · exact .inr (.inl ⟨hno.mpr ⟨⟨e, he⟩, hn⟩, ⟨line, List.mem_cons_of_mem _ hline, hbad⟩, by rw [hls]; rfl⟩)
      · exact .inr (.inr ⟨hno.mpr ⟨⟨e, he⟩, hn⟩, List.forall_mem_cons.mpr ⟨hconverts, hall⟩, e :: es, by rw [hls]; rfl⟩)

end Entries

/-! ## Files -/

/-- The header line of a file. -/
def headerOf (myfile : List UInt8) : Line := (lines myfile).headD []

/-- The lines behind it. -/
def furtherLines (myfile : List UInt8) : List Line := (lines myfile).tail

section Files

variable {H E : Type}

/-- The builder throws, or the header holds its numbers, every further line holds four integers, and the result has one entry
for each of these lines, in order, computed from the integers of the line and the header by the formula. -/
def Exact (builder : Option (List UInt8) → Comp (List E)) (numbers : H → List Int) (formula : H → Int → Int → Int → Int → E)
    (myfile : List UInt8) : Prop :=
  builder (some myfile) = .error .thrown ∨ ∃ toRet h, builder (some myfile) = .ok toRet ∧
    Holds (headerOf myfile) (numbers h) ∧
    List.Forall₂ (fun line e => ∃ a b c d, Holds line [a, b, c, d] ∧ e = formula h a b c d) (furtherLines myfile) toRet

/-- The first `n` fields of the header begin with integers. Then, up to the first line in which one of the first four fields
does not, the numbers read are such that the formula can be computed; and where there is no such line, the header holds `n`
integers and every further line four. -/
def Fits (n : Nat) (inInt : Int → Int → Int → Int → Prop) (myfile : List UInt8) : Prop :=
  converts n (headerOf myfile) = true →
    (∀ line ∈ (furtherLines myfile).takeWhile (converts 4), ∀ a b c d,
      numbersOf 4 (fieldsOf line) = some [a, b, c, d] → inInt a b c d) ∧
    ((∀ line ∈ furtherLines myfile, converts 4 line = true) →
      (∃ ns, ns.length = n ∧ Holds (headerOf myfile) ns) ∧
        ∀ line ∈ furtherLines myfile, ∃ ns, ns.length = 4 ∧ Holds line ns)

/-- A builder is exact on the files that fit. -/
theorem vectorBuilder_exact_iff {n : Nat} {header : Line → Comp H} {numbers : H → List Int}
    {entry : H → Int → Int → Int → Int → Comp E} {formula : H → Int → Int → Int → Int → E}
    {inInt : Int → Int → Int → Int → Prop} (hlength : ∀ h, (numbers h).length = n)
    (hheader : ∀ line, (converts n line = false ∧ header line = .error .thrown) ∨
      ∃ h, converts n line = true ∧ numbersOf n (fieldsOf line) = some (numbers h) ∧ header line = .ok h)
    (hentry : ∀ h a b c d, (inInt a b c d ∧ entry h a b c d = .ok (formula h a b c d)) ∨
      (¬inInt a b c d ∧ entry h a b c d = .error .overflow)) (myfile : List UInt8) :
    Exact (vectorBuilder header entry) numbers formula myfile ↔ Fits n inInt myfile := by
  have hbuilder : vectorBuilder header entry (some myfile) =
      header (headerOf myfile) >>= fun h => (furtherLines myfile).mapM (lineEntry (entry h)) := by
    have hloop : ∀ h, (furtherLines myfile).foldlM (fun toRet line => do
        let tempf ← lineEntry (entry h) line
        return toRet ++ [tempf]) [] = (furtherLines myfile).mapM (lineEntry (entry h)) := fun h => by
      rw [foldlM_push]
      cases (furtherLines myfile).mapM (lineEntry (entry h)) <;> rfl
    simp only [← hloop, lineEntry, bind_assoc]
    rfl
  rw [Exact, hbuilder, Fits]
  rcases hheader (headerOf myfile) with ⟨hconverts, hh⟩ | ⟨h, hconverts, hnumbers, hh⟩
  · rw [hh, hconverts]
    exact iff_of_true (.inl rfl) nofun
  rw [hh, ok_bind, forall_prop_of_true hconverts]
  have hoverflow : ∀ a b c d, entry h a b c d = .error .overflow ∨ ∃ e, entry h a b c d = .ok e :=
    fun a b c d => (hentry h a b c d).elim (fun hok => .inr ⟨_, hok.2⟩) fun hover => .inl hover.2
  have hcases := entries_cases hoverflow (furtherLines myfile)
  have hno : NoOverflow (entry h) (furtherLines myfile) ↔ ∀ line ∈ (furtherLines myfile).takeWhile (converts 4),
      ∀ a b c d, numbersOf 4 (fieldsOf line) = some [a, b, c, d] → inInt a b c d := by
    refine forall₂_congr fun line _ => forall₄_congr fun a b c d => imp_congr_right fun _ => ?_
    rcases hentry h a b c d with ⟨hin, hok⟩ | ⟨hnot, hover⟩
    · exact iff_of_true ⟨_, hok⟩ hin
    · refine iff_of_false ?_ hnot
      rintro ⟨e, he⟩
      rw [hover] at he
      cases he
  rw [← hno]
  rcases hcases with ⟨hnot, hr⟩ | ⟨hn, ⟨line, hline, hbad⟩, hr⟩ | ⟨hn, hall, es, hr⟩
  · refine iff_of_false ?_ fun hfits => hnot hfits.1
    rw [hr]
    rintro (h | ⟨_, _, h, _⟩) <;> cases h
  · refine iff_of_true (.inl hr) ⟨hn, fun hall => ?_⟩
    rw [hall line hline] at hbad
    cases hbad
  · rw [and_iff_right hn, forall_prop_of_true hall, hr]
    have hlines : List.Forall₂ (fun line e => lineEntry (entry h) line = .ok e) (furtherLines myfile) es := mapM_eq_ok.mp hr
    constructor
    · rintro (h' | ⟨toRet, h', heq, hhold, hentries⟩)
      · cases h'
      · have hfour : List.Forall₂ (fun line _ => (∃ ns, ns.length = 4 ∧ Holds line ns) ∧ True) (furtherLines myfile) toRet :=
          hentries.imp fun line e ⟨a, b, c, d, hline, _⟩ => ⟨⟨[a, b, c, d], rfl, hline⟩, trivial⟩
        exact ⟨⟨_, hlength h', hhold⟩, ((List.forall₂_and_left _ _).mp hfour).1⟩
    · rintro ⟨⟨ns, hns, hhold⟩, hall⟩
      refine .inr ⟨es, h, rfl, ?_, ?_⟩
      · have hread := hhold.numbersOf
        rw [hns, hnumbers, Option.some_inj] at hread
        exact hread ▸ hhold
      · refine ((List.forall₂_and_left _ _).mpr ⟨hall, hlines⟩).imp fun line e ⟨⟨ns, hns, hhold⟩, he⟩ => ?_
        have hread := hhold.numbersOf
        rw [hns] at hread
        rcases lineEntry_cases (entry h) line with ⟨hbad, hl⟩ | ⟨a, b, c, d, _, hnumbers, hl⟩
        · rw [hl] at he
          cases he
        · rw [hread, Option.some_inj] at hnumbers
          subst hnumbers
          refine ⟨a, b, c, d, hhold, ?_⟩
          rw [hl] at he
          rcases hentry h a b c d with ⟨_, hok⟩ | ⟨_, hover⟩
          · rw [hok] at he
            cases he
            rfl
          · rw [hover] at he
            cases he

end Files

/-- A header of several numbers: it is rejected, or it is made of the numbers read from it. -/
theorem readInts_cases (n : Nat) (line : Line) : (converts n line = false ∧ readInts n line = .error .thrown) ∨
    ∃ ns, converts n line = true ∧ numbersOf n (fieldsOf line) = some ns ∧ readInts n line = .ok ns := by
  rw [readInts_eq]
  cases hnumbers : numbersOf n (fieldsOf line) with
  | none =>
    refine .inl ⟨?_, rfl⟩
    rw [← Bool.not_eq_true, ← numbersOf_isSome, hnumbers]
    nofun
  | some ns => exact .inr ⟨ns, (numbersOf_isSome n line).mp (by rw [hnumbers]; rfl), rfl, rfl⟩

/-- `RectVectorBuilder` does what it should. -/
def RectExact : List UInt8 → Prop :=
  Exact RectVectorBuilder (fun (width, height) => [width, height]) fun (width, height) a b c d =>
    { x := ratio (c - a) width, y := ratio (d - b) height, z := ratio a width, w := ratio b height }

/-- `charVectorBuilder` does what it should. -/
def CharExact : List UInt8 → Prop :=
  Exact charVectorBuilder (fun (imgWidth, imgHeight, width, height) => [imgWidth, imgHeight, width, height])
    fun (imgWidth, imgHeight, _, _) a b c d =>
      { a := ratio c imgWidth, b := ratio d imgHeight, c := ratio (a - c.tdiv 2) imgWidth
        d := ratio (b - d.tdiv 2) imgHeight, e := c, f := d }

theorem int_cases (n : Int) : (InInt n ∧ int n = .ok n) ∨ (¬InInt n ∧ int n = .error .overflow) := by
  by_cases h : InInt n
  · exact .inl ⟨h, int_of_inInt h⟩
  · exact .inr ⟨h, if_neg h⟩

theorem rectExact_iff (myfile : List UInt8) :
    RectExact myfile ↔ Fits 2 (fun a b c d => InInt (c - a) ∧ InInt (d - b)) myfile := by
  unfold RectExact RectVectorBuilder
  refine vectorBuilder_exact_iff ?_ ?_ ?_ myfile
  · exact fun _ => rfl
  · intro line
    have hheader : readInts 2 line >>= ofTwo (fun width height => .ok (width, height)) =
        nextInt line >>= fun first => nextInt first.2 >>= fun second => .ok (first.1, second.1) := by
      simp only [readInts, bind_assoc, pure_bind, ofTwo]
    rcases readInts_cases 2 line with ⟨hbad, hread⟩ | ⟨ns, hconverts, hnumbers, hread⟩
    · rw [hread] at hheader
      exact .inl ⟨hbad, hheader.symm⟩
    · rw [hread] at hheader
      obtain ⟨width, height, rfl⟩ := eq_of_length_two (length_of_numbersOf hnumbers)
      exact .inr ⟨(width, height), hconverts, hnumbers, hheader.symm⟩
  · rintro ⟨width, height⟩ a b c d
    rcases int_cases (c - a) with ⟨hx, hx'⟩ | ⟨hx, hx'⟩
    · rcases int_cases (d - b) with ⟨hy, hy'⟩ | ⟨hy, hy'⟩
      · exact .inl ⟨⟨hx, hy⟩, by simp only [hx', hy', ok_bind]; rfl⟩
      · exact .inr ⟨fun h => hy h.2, by simp only [hx', hy', ok_bind]; rfl⟩
    · exact .inr ⟨fun h => hx h.1, by simp only [hx']; rfl⟩

theorem charExact_iff (myfile : List UInt8) :
    CharExact myfile ↔ Fits 4 (fun a b c d => InInt (a - c.tdiv 2) ∧ InInt (b - d.tdiv 2)) myfile := by
  unfold CharExact charVectorBuilder
  refine vectorBuilder_exact_iff ?_ ?_ ?_ myfile
  · exact fun _ => rfl
  · intro line
    have hheader : readInts 4 line >>= ofFour (fun imgWidth imgHeight width height =>
          .ok (imgWidth, imgHeight, width, height)) =
        nextInt line >>= fun first => nextInt first.2 >>= fun second => nextInt second.2 >>= fun third =>
          nextInt third.2 >>= fun fourth => .ok (first.1, second.1, third.1, fourth.1) := by
      simp only [readInts, bind_assoc, pure_bind, ofFour]
    rcases readInts_cases 4 line with ⟨hbad, hread⟩ | ⟨ns, hconverts, hnumbers, hread⟩
    · rw [hread] at hheader
      exact .inl ⟨hbad, hheader.symm⟩
    · rw [hread] at hheader
      obtain ⟨imgWidth, imgHeight, width, height, rfl⟩ := eq_of_length_four (length_of_numbersOf hnumbers)
      exact .inr ⟨(imgWidth, imgHeight, width, height), hconverts, hnumbers, hheader.symm⟩
  · rintro ⟨imgWidth, imgHeight, width, height⟩ a b c d
    rcases int_cases (a - c.tdiv 2) with ⟨hx, hx'⟩ | ⟨hx, hx'⟩
    · rcases int_cases (b - d.tdiv 2) with ⟨hy, hy'⟩ | ⟨hy, hy'⟩
      · exact .inl ⟨⟨hx, hy⟩, by simp only [hx', hy', ok_bind]; rfl⟩
      · exact .inr ⟨fun h => hy h.2, by simp only [hx', hy', ok_bind]; rfl⟩
    · exact .inr ⟨fun h => hx h.1, by simp only [hx']; rfl⟩

/-- For every file, each of the builders: it throws, or its result is made of the integers of the lines, exactly when the file
fits. -/
theorem builders_exact_iff (myfile : List UInt8) :
    (RectExact myfile ↔ Fits 2 (fun a b c d => InInt (c - a) ∧ InInt (d - b)) myfile) ∧
      (CharExact myfile ↔ Fits 4 (fun a b c d => InInt (a - c.tdiv 2) ∧ InInt (b - d.tdiv 2)) myfile) :=
  ⟨rectExact_iff myfile, charExact_iff myfile⟩

/-- The header "10, 20" and the line "5". -/
def shortLine : List UInt8 := [49, 48, 44, 32, 50, 48, 10, 53, 10]

/-- The line with one field becomes an entry, all of whose numbers are 5. -/
theorem short_line_taken :
    RectVectorBuilder (some shortLine) = .ok [{ x := some 0, y := some 0, z := some (1 / 2), w := some (1 / 4) }] ∧
      ¬RectExact shortLine := by
  have hfurther : furtherLines shortLine = [[53]] := by decide
  have hresult : RectVectorBuilder (some shortLine) =
      .ok [{ x := some 0, y := some 0, z := some (1 / 2), w := some (1 / 4) }] := by decide +kernel
  refine ⟨hresult, ?_⟩
  rintro (h | ⟨toRet, _, _, _, hentries⟩)
  · rw [hresult] at h
    cases h
  · rw [hfurther] at hentries
    obtain ⟨_, _, ⟨a, b, c, d, hhold, _⟩, _⟩ := (List.forall₂_cons_left_iff).mp hentries
    have hone : fieldsOf [53] = [[53]] := by decide
    have hlen := hhold.length_eq
    rw [hone] at hlen
    cases hlen

end Factory
