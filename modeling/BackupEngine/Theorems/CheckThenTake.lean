import BackupEngine.Lemmas.Inventar

/-!
# Checking, taking and giving

`hasPlayerItems` compares every entry of a list with what the player has, one entry at a time; `removeItemFromPlayer` takes the
entries one after the other and stops at zero. Where the list names an item twice the check can pass although the player has
less than the list asks for together, and then the removal takes less than the list says. All three functions also turn away
a list that has as many entries as there are players. Giving a list and taking it again changes nothing.
-/

namespace SiedlerServer

open Cpp Ledger

namespace Inventar

variable {inv inv' : Inventar} {id item : Int} {f : Int → Int} {count : List (Int × Int)}

/-- What all players have together after one of them was given another book. -/
theorem Created.total_withAmounts (h : inv.Created) (hid : inv.IsPlayer id) (hitem : inv.IsItem item) :
    (inv.withAmounts id f).total item = inv.total item - inv.held id item + f item := by
  obtain ⟨p, hp, hmem⟩ := hid.player
  have hnew : (p.withAmounts f).amount item = f item := by
    have hlen := h.length_ownedItems hmem
    obtain ⟨h0, hlt⟩ := hitem
    rw [← Int.toNat_of_nonneg h0]
    exact PlayerInventory.amount_withAmounts (by omega)
  rw [held_eq hp, ← hnew]
  exact sum_map_modify (fun p => p.amount item) (fun p => p.withAmounts f) hp

/-- The book after items of the catalogue were given is zero everywhere else, as every book is. -/
theorem Created.held_give (h : inv.Created) (hid : inv.IsPlayer id) (hcount : ∀ e ∈ count, inv.IsItem e.1)
    (hgiven : (inv.withAmounts id (give (inv.held id) count)).Created) :
    (inv.withAmounts id (give (inv.held id) count)).held id = give (inv.held id) count := by
  funext item
  by_cases hitem : inv.IsItem item
  · exact h.held_withAmounts hid hitem
  · have hnone : asked count item = 0 := asked_eq_zero fun e he heq => hitem (heq ▸ hcount e he)
    rw [hgiven.held_eq_zero (isPlayer_withAmounts.mpr hid) hitem, give, h.held_eq_zero hid hitem, hnone, add_zero]

/-! ## Check, then take -/

/-- A list of items of the catalogue with amounts that are not negative. -/
def IsOrder (inv : Inventar) (count : List (Int × Int)) : Prop := ∀ e ∈ count, inv.IsItem e.1 ∧ 0 ≤ e.2 ∧ InInt e.2

/-- The list is taken as it says: every item goes down by the sum of its amounts and nothing else changes, and if the same list
is then given to a player, every item is there as often as before. -/
structure TakenExactly (inv : Inventar) (id : Int) (count : List (Int × Int)) : Prop where
  lowered : inv.removeItemFromPlayer id count =
    .ok (inv.withAmounts id fun item => inv.held id item - asked count item)
  moved : ∀ id' left inv', inv.IsPlayer id' → inv.removeItemFromPlayer id count = .ok left →
    left.addItemtoPlayer id' count = .ok inv' → ∀ item, inv.IsItem item → inv'.total item = inv.total item

/-- A check that passed was not turned away, and found every entry covered. -/
theorem Created.covered_of_has (h : inv.Created) (hid : inv.IsPlayer id) (hcount : inv.IsOrder count)
    (hhas : inv.hasPlayerItems id count = .ok true) :
    count.length < inv.inventorys.length ∧ 0 + count.length < 2 ^ 31 ∧ ∀ e ∈ count, e.2 ≤ inv.held id e.1 := by
  unfold hasPlayerItems at hhas
  rw [h.refuses_eq hid] at hhas
  split at hhas
  · cases hhas
  · rename_i hlen
    have hshort : 0 + count.length < 2 ^ 31 := by
      rcases eq_or_ne count [] with rfl | hne
      · simp
      · exact length_of_hasItems hhas hne
    rw [h.hasItems_eq hid (fun e he => (hcount e he).1) hshort, Except.ok.injEq, decide_eq_true_iff] at hhas
    exact ⟨by simpa using hlen, hshort, hhas⟩

/-- A removal that was not turned away draws on the book of the player. -/
theorem Created.removeItemFromPlayer_eq (h : inv.Created) (hid : inv.IsPlayer id) (hheld : ∀ item, 0 ≤ inv.held id item)
    (hcount : inv.IsOrder count) (hlen : count.length < inv.inventorys.length) (hshort : 0 + count.length < 2 ^ 31) :
    inv.removeItemFromPlayer id count = .ok (inv.withAmounts id (draw (inv.held id) count)) := by
  obtain ⟨left, hleft⟩ := h.removeItems_returns hid hheld hcount
  unfold removeItemFromPlayer
  rw [h.refuses_eq hid, if_neg (by simpa using hlen), forEach_eq_foldlM hshort, hleft]
  exact congrArg _ (h.removeItems hid (fun e he => (hcount e he).1) hleft).1

/-- An addition that returned has counted the list with an `int`. -/
theorem Created.length_of_addItemtoPlayer (h : inv.Created) (hid : inv.IsPlayer id)
    (hlen : count.length < inv.inventorys.length) (hadd : inv.addItemtoPlayer id count = .ok inv') :
    0 + count.length < 2 ^ 31 := by
  unfold addItemtoPlayer at hadd
  rw [h.refuses_eq hid, if_neg (by simpa using hlen)] at hadd
  rcases eq_or_ne count [] with rfl | hne
  · simp
  · exact length_of_forEach hadd hne

/-- After a check that passed, the list is taken as it says exactly where no item is asked for more often than the player has
it. -/
theorem takenExactly_iff (h : inv.Created) (hnn : inv.NonNegative) (hid : inv.IsPlayer id) (hcount : inv.IsOrder count)
    (hhas : inv.hasPlayerItems id count = .ok true) :
    inv.TakenExactly id count ↔ ∀ e ∈ count, asked count e.1 ≤ inv.held id e.1 := by
  obtain ⟨hlen, hshort, _⟩ := h.covered_of_has hid hcount hhas
  have hheld : ∀ item, 0 ≤ inv.held id item := fun _ => held_nonneg hnn
  have hamounts : ∀ e ∈ count, 0 ≤ e.2 := fun e he => (hcount e he).2.1
  have hitems : ∀ e ∈ count, inv.IsItem e.1 := fun e he => (hcount e he).1
  have htaken := h.removeItemFromPlayer_eq hid hheld hcount hlen hshort
  constructor
  · rintro ⟨hlowered, _⟩ e he
    rw [htaken, Except.ok.injEq] at hlowered
    exact (draw_eq_sub_iff hheld hamounts e.1).mp (h.withAmounts_inj hid hlowered (hitems e he))
  · intro hcovered
    have hbook : draw (inv.held id) count = fun item => inv.held id item - asked count item := by
      funext item
      refine (draw_eq_sub_iff hheld hamounts item).mpr ?_
      by_cases hmem : ∃ e ∈ count, e.1 = item
      · obtain ⟨e, he, rfl⟩ := hmem
        exact hcovered e he
      · push Not at hmem
        rw [asked_eq_zero hmem]
        exact hheld item
    rw [hbook] at htaken
    refine ⟨htaken, fun id' left inv' hid' hleft hadd item hitem => ?_⟩
    rw [htaken] at hleft
    cases hleft
    have hcreated : (inv.withAmounts id fun item => inv.held id item - asked count item).Created := by
      obtain ⟨left, hleft⟩ := h.removeItems_returns hid hheld hcount
      obtain ⟨rfl, hcreated⟩ := h.removeItems hid hitems hleft
      rwa [hbook] at hcreated
    obtain ⟨rfl, _⟩ := hcreated.eq_of_addItemtoPlayer (isPlayer_withAmounts.mpr hid') hitems
      (by rwa [length_withAmounts]) hadd
    rw [hcreated.total_withAmounts (isPlayer_withAmounts.mpr hid') hitem, h.total_withAmounts hid hitem, give]
    ring

/-- A catalogue of one item and three players, the first of whom has one of it. -/
def threePlayers : Inventar :=
  let wood : Item := { id := 0, name := [], ValueMarcet := 4, ValueHabour := 3 }
  { knownItems := [wood]
    inventorys := [{ playerID := some 0, ownedItems := [(wood, 1)], hasHabour := [false] },
      { playerID := some 1, ownedItems := [(wood, 0)], hasHabour := [false] },
      { playerID := some 2, ownedItems := [(wood, 0)], hasHabour := [false] }] }

theorem created_threePlayers : threePlayers.Created := ⟨by decide, by decide, by decide⟩

theorem nonNegative_threePlayers : threePlayers.NonNegative := by
  unfold NonNegative
  decide

/-- A list that asks for the one piece is taken exactly. -/
theorem takenExactly_single :
    threePlayers.Created ∧ threePlayers.hasPlayerItems 0 [(0, 1)] = .ok true ∧ threePlayers.TakenExactly 0 [(0, 1)] := by
  have horder : threePlayers.IsOrder [(0, 1)] := by
    unfold IsOrder
    decide
  have hhas : threePlayers.hasPlayerItems 0 [(0, 1)] = .ok true := by decide +kernel
  exact ⟨created_threePlayers, hhas, (takenExactly_iff created_threePlayers nonNegative_threePlayers (by decide) horder
    hhas).mpr (by decide)⟩

/-- A list that asks for the one piece twice passes the check, and taking it leaves nothing instead of a debt of one. -/
theorem repeated_item_cut_off :
    threePlayers.Created ∧ threePlayers.NonNegative ∧ threePlayers.IsPlayer 0 ∧ threePlayers.IsOrder [(0, 1), (0, 1)] ∧
      threePlayers.hasPlayerItems 0 [(0, 1), (0, 1)] = .ok true ∧ ¬threePlayers.TakenExactly 0 [(0, 1), (0, 1)] := by
  refine ⟨created_threePlayers, nonNegative_threePlayers, by decide, ?_, by decide +kernel, ?_⟩
  · unfold IsOrder
    decide
  · rintro ⟨hlowered, _⟩
    revert hlowered
    decide +kernel

/-! ## Whatever the length of the list -/

/-- The player has what the list asks for together. -/
def Covers (inv : Inventar) (id : Int) (count : List (Int × Int)) : Prop := ∀ e ∈ count, asked count e.1 ≤ inv.held id e.1

/-- The player has what each entry asks for by itself. -/
def CoversEach (inv : Inventar) (id : Int) (count : List (Int × Int)) : Prop := ∀ e ∈ count, e.2 ≤ inv.held id e.1

instance : Decidable (inv.Covers id count) := inferInstanceAs (Decidable (∀ e ∈ count, _))

instance : Decidable (inv.CoversEach id count) := inferInstanceAs (Decidable (∀ e ∈ count, _))

/-- The request is served: giving the list raises every item of the player by the sum of its amounts and changes nothing else,
and the question is answered by whether the player has what the list asks for. -/
structure Served (inv : Inventar) (id : Int) (count : List (Int × Int)) : Prop where
  raised : inv.addItemtoPlayer id count = .ok (inv.withAmounts id fun item => inv.held id item + asked count item)
  answered : inv.hasPlayerItems id count = .ok (decide (inv.Covers id count))

/-- A request is served where the list has fewer entries than there are players, short enough for the counter of the loop, and
is covered entry by entry exactly if it is covered together. A longer list is dropped, which goes unnoticed only where it asks
for nothing in sum and is not covered. -/
theorem served_iff (h : inv.Created) (hid : inv.IsPlayer id) (hitems : ∀ e ∈ count, inv.IsItem e.1)
    (hints : ∀ p, p <+: count → ∀ e ∈ count, InInt (inv.held id e.1 + asked p e.1)) :
    inv.Served id count ↔
      (count.length < inv.inventorys.length ∧ count.length < 2 ^ 31 ∧ (inv.CoversEach id count ↔ inv.Covers id count)) ∨
        (inv.inventorys.length ≤ count.length ∧ (∀ e ∈ count, asked count e.1 = 0) ∧ ¬inv.Covers id count) := by
  rcases lt_or_ge count.length inv.inventorys.length with hlen | hlen
  · have hpass : ¬inv.refuses id count = true := by
      rw [h.refuses_eq hid]
      simpa using hlen
    have hhas : count.length < 2 ^ 31 → inv.hasPlayerItems id count = .ok (decide (inv.CoversEach id count)) := by
      intro hshort
      unfold hasPlayerItems
      rw [if_neg hpass]
      exact h.hasItems_eq hid hitems (by omega)
    constructor
    · rintro ⟨hraised, hanswered⟩
      have hshort : count.length < 2 ^ 31 := by
        have := h.length_of_addItemtoPlayer hid hlen hraised
        omega
      rw [hhas hshort, Except.ok.injEq, decide_eq_decide] at hanswered
      exact .inl ⟨hlen, hshort, hanswered⟩
    · rintro (⟨_, hshort, hsame⟩ | ⟨hlong, _⟩)
      · obtain ⟨inv', hadd⟩ := h.addItems_returns hid hitems hints
        refine ⟨?_, ?_⟩
        · unfold addItemtoPlayer
          rw [if_neg hpass, forEach_eq_foldlM (by omega), hadd]
          exact congrArg _ (h.addItems hid hitems hadd).1
        · rw [hhas hshort, Except.ok.injEq, decide_eq_decide]
          exact hsame
      · exact absurd hlong (not_le.mpr hlen)
  · have hturned : inv.refuses id count = true := by
      rw [h.refuses_eq hid]
      simpa using hlen
    have hadd : inv.addItemtoPlayer id count = .ok inv := if_pos hturned
    have hhas : inv.hasPlayerItems id count = .ok false := if_pos hturned
    constructor
    · rintro ⟨hraised, hanswered⟩
      rw [hadd, Except.ok.injEq] at hraised
      rw [hhas, Except.ok.injEq, eq_comm, decide_eq_false_iff_not] at hanswered
      refine .inr ⟨hlen, fun e he => ?_, hanswered⟩
      have hsame := h.withAmounts_inj hid ((withAmounts_held hid).trans hraised) (hitems e he)
      omega
    · rintro (⟨hshort, _⟩ | ⟨_, hzero, hcovers⟩)
      · exact absurd hlen (not_le.mpr hshort)
      · have hbook : (fun item => inv.held id item + asked count item) = inv.held id := by
          funext item
          have hnone : asked count item = 0 := by
            by_cases hmem : ∃ e ∈ count, e.1 = item
            · obtain ⟨e, he, rfl⟩ := hmem
              exact hzero e he
            · push Not at hmem
              exact asked_eq_zero hmem
          rw [hnone, add_zero]
        refine ⟨?_, ?_⟩
        · rw [hbook, withAmounts_held hid]
          exact hadd
        · rw [hhas, decide_eq_false hcovers]

/-- The player has the piece that is asked for, and there are more players than entries. -/
theorem served_single : threePlayers.Created ∧ threePlayers.Served 0 [(0, 1)] := by
  refine ⟨created_threePlayers, (served_iff created_threePlayers (by decide) (by decide) ?_).mpr (.inl (by decide))⟩
  intro p hp
  rw [← List.mem_inits] at hp
  revert p
  decide

/-- Three entries for three players: the player has what they ask for, and is told that it has not. -/
theorem long_list_dropped :
    threePlayers.Created ∧ threePlayers.IsPlayer 0 ∧ (∀ e ∈ [(0, 1), (0, 0), (0, 0)], threePlayers.IsItem e.1) ∧
      ¬threePlayers.Served 0 [(0, 1), (0, 0), (0, 0)] := by
  refine ⟨created_threePlayers, by decide, by decide, ?_⟩
  rintro ⟨_, hanswered⟩
  revert hanswered
  decide +kernel

/-! ## Giving, then taking -/

/-- An addition that does not overflow returns. -/
theorem Created.addItemtoPlayer_returns (h : inv.Created) (hid : inv.IsPlayer id) (hitems : ∀ e ∈ count, inv.IsItem e.1)
    (hlen : count.length < inv.inventorys.length) (hover : inv.addItemtoPlayer id count ≠ .error .overflow) :
    ∃ inv', inv.addItemtoPlayer id count = .ok inv' := by
  cases hadd : inv.addItemtoPlayer id count with
  | ok inv' => exact ⟨inv', rfl⟩
  | error f =>
    have hfault : f = .overflow := by
      unfold addItemtoPlayer at hadd
      rw [h.refuses_eq hid, if_neg (by simpa using hlen)] at hadd
      refine forEach_error (Q := (· = .overflow)) rfl
        (fun s => s.Created ∧ s.IsPlayer id ∧ s.knownItems = inv.knownItems) ?_ ⟨h, hid, rfl⟩ (by decide) hadd
      rintro s e he ⟨hs, hsid, hknown⟩
      have hitem : s.IsItem e.1 := by
        have := hitems e (List.mem_of_mem_take he)
        unfold IsItem getMaxItemCount at *
        rwa [hknown]
      obtain ⟨hfaults, hkeep⟩ := hs.addItem_step hsid hitem
      refine ⟨hfaults, fun t ht => ?_⟩
      obtain ⟨ht, htid, htknown⟩ := hkeep t ht
      exact ⟨ht, htid, htknown.trans hknown⟩
    exact absurd (hfault ▸ hadd) hover

/-- Items that were given can be taken again, and the inventory is then what it was before: whoever the id belongs to, and
whether or not the list was turned away. -/
theorem give_then_take (h : inv.Created) (hnn : inv.NonNegative) (hsome : inv.inventorys ≠ []) (hint : InInt id)
    (hcount : inv.IsOrder count) (hover : inv.addItemtoPlayer id count ≠ .error .overflow) :
    ∃ inv', inv.addItemtoPlayer id count = .ok inv' ∧ inv'.removeItemFromPlayer id count = .ok inv := by
  by_cases hid : inv.IsPlayer id
  · rcases lt_or_ge count.length inv.inventorys.length with hlen | hlen
    · have hitems : ∀ e ∈ count, inv.IsItem e.1 := fun e he => (hcount e he).1
      have hamounts : ∀ e ∈ count, 0 ≤ e.2 := fun e he => (hcount e he).2.1
      have hheld : ∀ item, 0 ≤ inv.held id item := fun _ => held_nonneg hnn
      obtain ⟨inv', hadd⟩ := h.addItemtoPlayer_returns hid hitems hlen hover
      have hshort : 0 + count.length < 2 ^ 31 := h.length_of_addItemtoPlayer hid hlen hadd
      obtain ⟨rfl, hcreated⟩ := h.eq_of_addItemtoPlayer hid hitems hlen hadd
      have hgiven := h.held_give hid hitems hcreated
      have hnext : ∀ item, 0 ≤ (inv.withAmounts id (give (inv.held id) count)).held id item := by
        intro item
        rw [hgiven]
        exact give_nonneg hheld hamounts item
      refine ⟨_, hadd, ?_⟩
      -- what the first call gave is what the second draws on, so its clamp never acts
      rw [hcreated.removeItemFromPlayer_eq (isPlayer_withAmounts.mpr hid) hnext hcount (by rwa [length_withAmounts]) hshort,
        hgiven, draw_give hheld hamounts, withAmounts_withAmounts, withAmounts_held hid]
    · have hturned : inv.refuses id count = true := by
        rw [h.refuses_eq hid]
        simpa using hlen
      exact ⟨inv, if_pos hturned, if_pos hturned⟩
  · have hturned : inv.refuses id count = true := h.refuses_stranger hint hid (.inr hsome)
    exact ⟨inv, if_pos hturned, if_pos hturned⟩

/-- One piece given to the first player and taken from it again. -/
theorem give_then_take_single :
    ∃ inv', threePlayers.addItemtoPlayer 0 [(0, 1), (0, 1)] = .ok inv' ∧
      inv'.removeItemFromPlayer 0 [(0, 1), (0, 1)] = .ok threePlayers := by
  refine give_then_take created_threePlayers nonNegative_threePlayers (by decide) (by decide) ?_ (by decide +kernel)
  unfold IsOrder
  decide

end Inventar

end SiedlerServer
