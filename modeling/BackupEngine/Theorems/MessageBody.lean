import BackupEngine.Theorems.Wire

/-!
# Values on the body of a message

`operator>>` of a message does not ask whether the body holds a value of its type, and the body of a message from the wire is
as long as the peer said. `operator<<` keeps the length of the body in the header as well, in 32 bits.
-/

namespace Netzwerk

open Cpp Transition Connection

section

variable {T : Type}

namespace Message

variable {α : Type} [StandardLayout α] {m : Message T}

/-- A value that the body holds is taken from its end. -/
theorem pop_eq (hmax : m.body.length ≤ maxSize) (hfits : sizeof α ≤ m.body.length) :
    m.pop α = .ok (ofBytes (m.body.drop (m.body.length - sizeof α)),
      { header := { m.header with size := UInt32.ofNat (m.body.length - sizeof α) }
        body := m.body.take (m.body.length - sizeof α) }) := by
  have hi : sizeT (m.body.length - sizeof α) = m.body.length - sizeof α := by
    unfold maxSize at hmax
    unfold sizeT
    omega
  have htake : (m.body.drop (m.body.length - sizeof α)).take (sizeof α) = m.body.drop (m.body.length - sizeof α) :=
    List.take_of_length_le (by rw [List.length_drop]; omega)
  have hcopy : copyFrom m.body ((m.body.length - sizeof α : Nat) : Int) (sizeof α) =
      .ok (m.body.drop (m.body.length - sizeof α)) :=
    copyFrom_eq_ok.mpr ⟨⟨by omega, by omega⟩, htake⟩
  have hresize : resize m.body (m.body.length - sizeof α) 0 = .ok (m.body.take (m.body.length - sizeof α)) := by
    refine resize_eq_ok.mpr ⟨by omega, ?_⟩
    have hzero : m.body.length - sizeof α - m.body.length = 0 := by omega
    rw [resized, hzero, List.replicate_zero, List.append_nil]
  have hlen : (m.body.take (m.body.length - sizeof α)).length = m.body.length - sizeof α := by
    rw [List.length_take]
    omega
  rw [pop, hi]
  simp only [hcopy, ok_bind, hresize, hlen]
  rfl

/-- A read of more than the body holds starts before the beginning of the body. -/
theorem pop_short (hshort : m.body.length < sizeof α) : m.pop α = .error .badAccess := by
  have hcopy : copyFrom m.body (sizeT (m.body.length - sizeof α)) (sizeof α) = .error .badAccess := by
    unfold copyFrom
    rw [if_neg (by omega)]
  rw [pop]
  simp only [hcopy]
  rfl

end Message

/-! ## Reads by a handler -/

/-- A type a handler reads. -/
structure ReadType where
  type : Type
  [layout : StandardLayout type]

attribute [instance] ReadType.layout

/-- `sizeof` of the type. -/
def ReadType.size (r : ReadType) : Nat := sizeof r.type

namespace Message

/-- `msg >> a >> b …`, the values left out. -/
def readAll (m : Message T) : List ReadType → Comp (Message T)
  | [] => .ok m
  | r :: rs => do
    let (_, m) ← m.pop r.type
    m.readAll rs

/-- Every read, whatever was read before it, takes its bytes from the body, leaves the message as it is if the body has not
enough of them, and leaves the size in the header. -/
def ReadsWithin (m : Message T) (rs : List ReadType) : Prop :=
  ∀ before r after, rs = before ++ r :: after → ∀ m₁, m.readAll before = .ok m₁ →
    ∃ v m₂, m₁.pop r.type = .ok (v, m₂) ∧ (m₁.body.length < r.size → m₂ = m₁) ∧ m₂.Sized

theorem readsWithin_nil (m : Message T) : m.ReadsWithin [] := by
  intro before r after h
  cases before <;> cases h

/-- The first read, and those after it. -/
theorem readsWithin_cons {m : Message T} {r : ReadType} {rs : List ReadType} :
    m.ReadsWithin (r :: rs) ↔
      ∃ v m', m.pop r.type = .ok (v, m') ∧ (m.body.length < r.size → m' = m) ∧ m'.Sized ∧ m'.ReadsWithin rs := by
  constructor
  · intro h
    obtain ⟨v, m', hpop, hkeep, hsized⟩ := h [] r rs rfl m rfl
    refine ⟨v, m', hpop, hkeep, hsized, fun before r' after heq m₁ hread => ?_⟩
    refine h (r :: before) r' after (by rw [heq, List.cons_append]) m₁ ?_
    rw [readAll, hpop]
    exact hread
  · rintro ⟨v, m', hpop, hkeep, hsized, h⟩ before r' after heq m₁ hread
    cases before with
    | nil =>
      cases heq
      cases hread
      exact ⟨v, m', hpop, hkeep, hsized⟩
    | cons b before =>
      cases heq
      rw [readAll, hpop] at hread
      exact h before r' after rfl m₁ hread

/-- Reads of a body of less than 2^32 bytes stay in it exactly when together they are not larger. -/
theorem readsWithin_iff_sum {m : Message T} {rs : List ReadType} (hlt : m.body.length < 2 ^ 32) :
    m.ReadsWithin rs ↔ (rs.map ReadType.size).sum ≤ m.body.length := by
  induction rs generalizing m with
  | nil => exact iff_of_true m.readsWithin_nil (Nat.zero_le _)
  | cons r rs ih =>
    have hmax : m.body.length ≤ maxSize := by
      unfold maxSize
      omega
    rw [readsWithin_cons, List.map_cons, List.sum_cons]
    by_cases hfits : r.size ≤ m.body.length
    · obtain ⟨m', hpop, hlen, hsized⟩ : ∃ m' : Message T, (∃ v, m.pop r.type = .ok (v, m')) ∧
          m'.body.length = m.body.length - r.size ∧ m'.Sized := by
        refine ⟨_, ⟨_, pop_eq hmax hfits⟩, ?_, ?_⟩
        · simp only [List.length_take, ReadType.size]
          omega
        · simp only [Sized, List.length_take, UInt32.toNat_ofNat']
          unfold ReadType.size at hfits
          omega
      obtain ⟨v, hpop⟩ := hpop
      have hrest := ih (m := m') (by omega)
      constructor
      · rintro ⟨v₁, m₁, hpop₁, _, _, h⟩
        rw [hpop] at hpop₁
        cases hpop₁
        have := hrest.mp h
        omega
      · intro h
        exact ⟨v, m', hpop, fun hshort => absurd hshort (by omega), hsized, hrest.mpr (by omega)⟩
    · refine iff_of_false ?_ (by omega)
      rintro ⟨v, m', hpop, _⟩
      rw [pop_short (Nat.lt_of_not_le hfits)] at hpop
      cases hpop

end Message

section Received

variable [Inhabited T] [StandardLayout (MessageHeader T)]

/-- A message that a connection, new on bytes of any origin, has handed on. -/
def Received (m : Message T) : Prop :=
  ∃ (peer : Connection T) (bytes : List UInt8) (reads : List Unit) (t : Inbox T), peer.msgTemporaryIn = default ∧
    Run Inbox.reader ⟨peer.readHeader, bytes, []⟩ reads t ∧ ∃ owned ∈ t.qMessagesIn, owned.msg = m

/-- What a size of 32 bits bounds: the temporary message, the outstanding read of a body, and the messages handed on. -/
structure Narrow (s : Inbox T) : Prop where
  temporary : s.conn.msgTemporaryIn.body.length < 2 ^ 32
  reads : ∀ n, s.conn.reads = some (.body, n) → n < 2 ^ 32
  queue : ∀ owned ∈ s.qMessagesIn, owned.msg.body.length < 2 ^ 32

omit [Inhabited T] in
theorem Narrow.step {s t : Inbox T} (hs : Narrow s) (h : Inbox.reader.Step s () t) : Narrow t := by
  obtain ⟨henabled, hnext⟩ := h
  unfold Inbox.reader at henabled hnext
  simp only [Inbox.readEnabled] at henabled
  simp only [Inbox.readNext] at hnext
  cases hreads : s.conn.reads with
  | none => rw [hreads] at henabled; exact absurd henabled id
  | some r =>
    obtain ⟨part, n⟩ := r
    rw [hreads] at henabled hnext
    obtain ⟨⟨conn, owned⟩, hdone, h⟩ := bind_eq_ok.mp hnext
    cases h
    cases part with
    | header =>
      simp only [readDone, headerRead] at hdone
      split at hdone
      · obtain ⟨body, hbody, h⟩ := bind_eq_ok.mp hdone
        cases h
        obtain ⟨_, rfl⟩ := resize_eq_ok.mp hbody
        have hsize : (ofBytes (α := MessageHeader T) (s.unread.take n)).size.toNat < 2 ^ 32 := UInt32.toNat_lt _
        refine ⟨?_, fun k hk => ?_, ?_⟩
        · simp only [readBody, length_resized]
          exact hsize
        · simp only [readBody, length_resized, Option.some.injEq, Prod.mk.injEq, true_and] at hk
          exact hk ▸ hsize
        · simpa using hs.queue
      · cases hdone
        refine ⟨hs.temporary, (fun _ h => by cases h), fun o ho => ?_⟩
        rcases List.mem_append.mp ho with ho | ho
        · exact hs.queue o ho
        · rw [List.mem_singleton.mp ho]
          exact hs.temporary
    | body =>
      cases hdone
      have hlen : (s.unread.take n).length < 2 ^ 32 := by
        rw [List.length_take]
        have := hs.reads n hreads
        omega
      refine ⟨hlen, (fun _ h => by cases h), fun o ho => ?_⟩
      rcases List.mem_append.mp ho with ho | ho
      · exact hs.queue o ho
      · rw [List.mem_singleton.mp ho]
        exact hlen

/-- A message from the wire has less than 2^32 bytes, whatever the peer sent. -/
theorem Received.length_lt {m : Message T} (h : Received m) : m.body.length < 2 ^ 32 := by
  obtain ⟨peer, bytes, reads, t, htmp, hrun, owned, howned, rfl⟩ := h
  have hnarrow : Narrow t := by
    refine hrun.invariant (fun _ => Narrow) ⟨?_, by simp [readHeader], by simp⟩ fun _ s a u hs hstep => hs.step hstep
    rw [readHeader, htmp]
    exact Nat.two_pow_pos 32
  exact hnarrow.queue owned howned

/-- For every message from the wire and every sequence of reads: they do what they should exactly when the types read are
together not larger than the body. -/
theorem readsWithin_iff {m : Message T} (h : Received m) (rs : List ReadType) :
    m.ReadsWithin rs ↔ (rs.map ReadType.size).sum ≤ m.body.length := Message.readsWithin_iff_sum h.length_lt

/-- What a peer sends is received. -/
theorem received_of_sized {m : Message T} (hm : m.Sized) (hbody : m.body ≠ []) : Received m := by
  obtain ⟨peer, hpeer⟩ : ∃ peer : Connection T, peer.msgTemporaryIn = default :=
    ⟨{ self := 1, msgTemporaryIn := default }, rfl⟩
  obtain ⟨reads, t, hread, _, _, hqueue⟩ :=
    peer_reads peer hpeer [] [m] (fun m' hm' => List.mem_singleton.mp hm' ▸ hm)
  have hall : receivedAll (default : Message T) [m] = [m] := by
    rw [receivedAll, received, if_neg hbody]
    rfl
  refine ⟨peer, Message.encodeAll [m], reads, t, hpeer, hread, { remote := peer.remote, msg := m }, ?_, rfl⟩
  rw [hqueue, hall]
  exact List.mem_singleton_self _

end Received

/-- A message with a body of two bytes, read byte by byte. -/
theorem readsWithin_two_bytes : (⟨⟨2, 2⟩, [10, 20]⟩ : Message UInt32).ReadsWithin [⟨UInt8⟩, ⟨UInt8⟩] :=
  (readsWithin_iff (received_of_sized (by decide) (by decide)) _).mpr (by decide)

/-- A handler reads an `int` from a message with a body of two bytes. -/
theorem read_before_body : Received (⟨⟨2, 2⟩, [10, 20]⟩ : Message UInt32) ∧
    ¬(⟨⟨2, 2⟩, [10, 20]⟩ : Message UInt32).ReadsWithin [⟨Int32⟩] := by
  refine ⟨received_of_sized (by decide) (by decide), fun h => ?_⟩
  obtain ⟨v, m₂, hpop, _⟩ := h [] ⟨Int32⟩ [] rfl _ rfl
  rw [Message.pop_short (by decide)] at hpop
  cases hpop

/-! ## Pushes and pops -/

/-- A value with its type. -/
structure Datum where
  type : Type
  [layout : StandardLayout type]
  value : type

attribute [instance] Datum.layout

/-- The bytes of values that were pushed, the last of them first. -/
def stackBytes (vs : List Datum) : List UInt8 := vs.reverse.flatMap fun v => toBytes v.value

/-- What an empty message becomes by pushes, and by pops of a value of the type that was pushed last. The values that are on
it are listed from the last one. -/
inductive Built : List Datum → Message T → Prop
  | empty (id : T) : Built [] { header := { id := id } }
  | push {vs : List Datum} {m : Message T} (v : Datum) (before : Built vs m)
    (room : (m.push v.value).body.length ≤ maxSize) : Built (v :: vs) (m.push v.value)
  | pop {v : Datum} {vs : List Datum} {m m' : Message T} {w : v.type} (before : Built (v :: vs) m)
    (call : m.pop v.type = .ok (w, m')) : Built vs m'

/-- A pop of the value pushed last. -/
theorem Message.pop_push {m : Message T} {v : Datum} {below : List UInt8} (hbody : m.body = below ++ toBytes v.value)
    (hmax : m.body.length ≤ maxSize) :
    m.pop v.type = .ok (v.value, { header := { m.header with size := UInt32.ofNat below.length }, body := below }) := by
  have hlen : m.body.length - sizeof v.type = below.length := by simp [hbody]
  rw [pop_eq hmax (by simp [hbody]), hlen, hbody, List.drop_left, List.take_left, StandardLayout.ofBytes_toBytes]

/-- The body holds the values, and the header the length of the body in 32 bits. -/
theorem Built.body_eq {vs : List Datum} {m : Message T} (h : Built vs m) :
    m.body = stackBytes vs ∧ m.body.length ≤ maxSize ∧ m.header.size = UInt32.ofNat m.body.length := by
  induction h with
  | empty => exact ⟨rfl, Nat.zero_le _, rfl⟩
  | push v _ room ih =>
    refine ⟨?_, room, rfl⟩
    rw [Message.push, ih.1]
    simp [stackBytes]
  | @pop v vs m m' w _ call ih =>
    obtain ⟨hbody, hmax, _⟩ := ih
    have hsplit : m.body = stackBytes vs ++ toBytes v.value := by
      rw [hbody]
      simp [stackBytes]
    rw [Message.pop_push hsplit hmax] at call
    cases call
    refine ⟨rfl, ?_, rfl⟩
    rw [hsplit, List.length_append] at hmax
    exact Nat.le_trans (Nat.le_add_right _ _) hmax

section Framed

variable [StandardLayout (MessageHeader T)]

/-- Whatever a connection, new and given `m` alone, has written when its queue is empty, a peer that reads it hands on one
message and has read these bytes and no others. -/
def Framed (m : Message T) : Prop :=
  ∀ (start c : Connection T) (events : List (WriteEvent T)), Idle [] start → Run writer start events c →
    sends events = [m] → c.qMessagesOut = [] → ∀ (peer : Connection T) (rest : List UInt8) (queued : List (OwnedMessage T)),
      ∃ reads t, Run Inbox.reader ⟨peer.readHeader, c.written ++ rest, queued⟩ reads t ∧ t.unread = rest ∧
        t.qMessagesIn.length = queued.length + 1

/-- A message whose header has the size of its body, from which the values come back in reverse order, and which takes as many
bytes at the peer as were written for it. -/
structure InStep (vs : List Datum) (m : Message T) : Prop where
  sized : m.Sized
  lifo : ∀ v rest, vs = v :: rest → ∃ m', m.pop v.type = .ok (v.value, m') ∧ Built rest m'
  framed : Framed m

theorem framed_of_sized {m : Message T} (hm : m.Sized) : Framed m := by
  intro start c events h0 hrun hsends hq peer rest queued
  have hwritten := written_of_queue_nil h0 hrun hq
  rw [hsends, Message.encodeAll_cons, Message.encodeAll_nil, List.append_nil] at hwritten
  obtain ⟨reads, hread⟩ := Inbox.read_message peer peer.msgTemporaryIn m hm rest queued
  refine ⟨reads, _, hwritten ▸ hread, rfl, by rw [List.length_append, List.length_singleton]⟩

/-- A message that was built of values is in step exactly when its body has less than 2^32 bytes. -/
theorem inStep_iff {vs : List Datum} {m : Message T} (h : Built vs m) : InStep vs m ↔ m.body.length < 2 ^ 32 := by
  obtain ⟨hbody, hmax, hsize⟩ := h.body_eq
  constructor
  · intro hstep
    have hlt := m.header.size.toNat_lt
    rw [hstep.sized] at hlt
    exact hlt
  · intro hlt
    have hsized : m.Sized := by
      rw [Message.Sized, hsize, UInt32.toNat_ofNat']
      exact Nat.mod_eq_of_lt hlt
    refine ⟨hsized, ?_, framed_of_sized hsized⟩
    rintro v rest rfl
    have hsplit : m.body = stackBytes rest ++ toBytes v.value := by
      rw [hbody]
      simp [stackBytes]
    have hpop := Message.pop_push hsplit hmax
    exact ⟨_, hpop, h.pop hpop⟩

end Framed

/-- An array of bytes. -/
abbrev Block (n : Nat) : Type := { bs : List UInt8 // bs.length = n }

instance (n : Nat) [NeZero n] : StandardLayout (Block n) where
  sizeof := n
  toBytes := Subtype.val
  ofBytes := fun bs => if h : bs.length = n then ⟨bs, h⟩ else ⟨List.replicate n 0, List.length_replicate⟩
  length_toBytes := Subtype.property
  ofBytes_toBytes := fun b => dif_pos b.property
  sizeof_pos := NeZero.pos n

/-- An array of bytes that are all zero. -/
def zeros (n : Nat) [NeZero n] : Datum := { type := Block n, value := ⟨List.replicate n 0, List.length_replicate⟩ }

theorem built_zeros (n : Nat) [NeZero n] (hn : n ≤ maxSize) :
    ∃ m : Message UInt32, Built [zeros n] m ∧ m.body.length = n := by
  have hlen : (({ header := { id := 0 } } : Message UInt32).push (zeros n).value).body.length = n := by
    simp only [Message.push, List.nil_append]
    exact (zeros n).value.property
  exact ⟨_, .push (zeros n) (.empty 0) (hlen.trans_le hn), hlen⟩

/-- An id and a flag are pushed, and a length, which is popped again. -/
theorem built_id_flag : Built [⟨Bool, true⟩, ⟨UInt32, 7⟩] (⟨⟨3, 5⟩, [7, 0, 0, 0, 1]⟩ : Message UInt32) := by
  have hid : Built [⟨UInt32, 7⟩] (⟨⟨3, 4⟩, [7, 0, 0, 0]⟩ : Message UInt32) := .push ⟨UInt32, 7⟩ (.empty 3) (by decide)
  have hflag : Built [⟨Bool, true⟩, ⟨UInt32, 7⟩] (⟨⟨3, 5⟩, [7, 0, 0, 0, 1]⟩ : Message UInt32) :=
    .push ⟨Bool, true⟩ hid (by decide)
  have hlength := Built.push ⟨Int32, 2⟩ hflag (by decide)
  exact .pop (v := ⟨Int32, 2⟩) (w := (2 : Int32)) hlength rfl

theorem inStep_id_flag : InStep [⟨Bool, true⟩, ⟨UInt32, 7⟩] (⟨⟨3, 5⟩, [7, 0, 0, 0, 1]⟩ : Message UInt32) :=
  (inStep_iff built_id_flag).mpr (by decide)

/-- A message of 2^32 bytes: the size in its header is 0. -/
theorem size_wraps : ∃ m : Message UInt32, Built [zeros (2 ^ 32)] m ∧ m.body.length = 2 ^ 32 ∧ m.header.size = 0 ∧
    ¬InStep [zeros (2 ^ 32)] m := by
  obtain ⟨m, hm, hlen⟩ := built_zeros (2 ^ 32) (by decide)
  have hzero : m.header.size = 0 := by
    rw [hm.body_eq.2.2, hlen]
    decide
  refine ⟨m, hm, hlen, hzero, fun h => ?_⟩
  have hsized := h.sized
  rw [Message.Sized, hzero, hlen] at hsized
  exact absurd hsized (by decide)

end

end Netzwerk
