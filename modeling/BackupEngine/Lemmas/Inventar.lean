import BackupEngine.SiedlerServer.Inventar

/-!
# Helpers for the theorems about the inventory

An inventory whose players were created by `addPlayer` holds, for every player, an amount of each item of the catalogue. What a
call does is said of these amounts as a book: `held` reads the book of a player, `withAmounts` replaces it and nothing else,
and the loops of the program give or draw on it.
-/

namespace SiedlerServer

open Cpp Ledger Transition

/-! ## The book of a player -/

namespace PlayerInventory

/-- The amount of an item; zero where there is no such item. -/
def amount (p : PlayerInventory) : Int → Int
  | .ofNat i => (p.ownedItems[i]?.map Prod.snd).getD 0
  | .negSucc _ => 0

/-- The player with other amounts of the same items. -/
def withAmounts (p : PlayerInventory) (f : Int → Int) : PlayerInventory :=
  { p with ownedItems := p.ownedItems.mapIdx fun i e => (e.1, f i) }

variable {p : PlayerInventory} {f g : Int → Int} {i : Nat} {e : Item × Int}

theorem amount_eq (h : p.ownedItems[i]? = some e) : p.amount i = e.2 := by
  change (p.ownedItems[i]?.map Prod.snd).getD 0 = e.2
  rw [h]
  rfl

theorem amount_eq_zero (h : p.ownedItems.length ≤ i) : p.amount i = 0 := by
  change (p.ownedItems[i]?.map Prod.snd).getD 0 = 0
  rw [List.getElem?_eq_none h]
  rfl

theorem getElem?_withAmounts : (p.withAmounts f).ownedItems[i]? = p.ownedItems[i]?.map fun e => (e.1, f i) :=
  List.getElem?_mapIdx

/-- The items stay. -/
theorem map_fst_withAmounts : (p.withAmounts f).ownedItems.map Prod.fst = p.ownedItems.map Prod.fst := by
  refine List.ext_getElem? fun i => ?_
  rw [List.getElem?_map, List.getElem?_map, getElem?_withAmounts, Option.map_map]
  rfl

theorem amount_withAmounts (h : i < p.ownedItems.length) : (p.withAmounts f).amount i = f i := by
  refine amount_eq (e := (p.ownedItems[i].1, f i)) ?_
  rw [getElem?_withAmounts, List.getElem?_eq_getElem h]
  rfl

@[simp] theorem withAmounts_withAmounts : (p.withAmounts f).withAmounts g = p.withAmounts g := by
  unfold withAmounts
  rw [List.mapIdx_mapIdx]
  rfl

/-- Only the amounts of the items a player has matter. -/
theorem withAmounts_congr (h : ∀ i < p.ownedItems.length, f i = g i) : p.withAmounts f = p.withAmounts g := by
  unfold withAmounts
  congr 1
  refine List.ext_getElem? fun i => ?_
  rw [List.getElem?_mapIdx, List.getElem?_mapIdx]
  rcases lt_or_ge i p.ownedItems.length with hi | hi
  · rw [h i hi]
  · rw [List.getElem?_eq_none hi]
    rfl

theorem withAmounts_amount : p.withAmounts p.amount = p := by
  have howned : (p.withAmounts p.amount).ownedItems = p.ownedItems := by
    refine List.ext_getElem? fun i => ?_
    rw [getElem?_withAmounts]
    cases he : p.ownedItems[i]? with
    | none => rfl
    | some e =>
      rw [amount_eq he]
      rfl
  exact congrArg (fun owned => { p with ownedItems := owned }) howned

/-- One amount written in place. -/
theorem withAmounts_update (h : p.ownedItems[i]? = some e) (v : Int) :
    p.withAmounts (Function.update p.amount i v) = { p with ownedItems := p.ownedItems.set i (e.1, v) } := by
  have howned : (p.withAmounts (Function.update p.amount i v)).ownedItems = p.ownedItems.set i (e.1, v) := by
    refine List.ext_getElem? fun j => ?_
    rw [getElem?_withAmounts, List.getElem?_set]
    by_cases hij : i = j
    · subst hij
      rw [if_pos rfl, if_pos (List.getElem?_eq_some_iff.mp h).1, h, Function.update_self]
      rfl
    · have hne : (j : Int) ≠ i := fun heq => hij (Int.ofNat_inj.mp heq).symm
      rw [if_neg hij, Function.update_of_ne hne]
      cases he : p.ownedItems[j]? with
      | none => rfl
      | some e' =>
        rw [amount_eq he]
        rfl
  exact congrArg (fun owned => { p with ownedItems := owned }) howned

end PlayerInventory

/-! ## Inventories whose players were created by `addPlayer` -/

namespace Inventar

/-- The ids `addPlayer` gave out. -/
def IsPlayer (inv : Inventar) (id : Int) : Prop := 0 ≤ id ∧ id < inv.inventorys.length

/-- The indices of the items. -/
def IsItem (inv : Inventar) (item : Int) : Prop := 0 ≤ item ∧ item < inv.getMaxItemCount

/-- Every player has an amount of each item of the catalogue. -/
structure Created (inv : Inventar) : Prop where
  bounded : inv.inventorys.length ≤ maxSize
  items : ∀ p ∈ inv.inventorys, p.ownedItems.map Prod.fst = inv.knownItems.take inv.getMaxItemCount.toNat
  amounts : ∀ p ∈ inv.inventorys, ∀ e ∈ p.ownedItems, InInt e.2

/-- No player owes an item. -/
def NonNegative (inv : Inventar) : Prop := ∀ p ∈ inv.inventorys, ∀ e ∈ p.ownedItems, 0 ≤ e.2

/-- The amount of an item that a player has. -/
def held (inv : Inventar) (id item : Int) : Int := (inv.inventorys[id.toNat]?.map fun p => p.amount item).getD 0

/-- The inventory with other amounts for one player, and all else as it is. -/
def withAmounts (inv : Inventar) (id : Int) (f : Int → Int) : Inventar :=
  { inv with inventorys := inv.inventorys.modify id.toNat fun p => p.withAmounts f }

/-- The amount of an item that all players have together. -/
def total (inv : Inventar) (item : Int) : Int := (inv.inventorys.map fun p => p.amount item).sum

variable {inv inv' : Inventar} {id id' item : Int} {f g : Int → Int} {count : List (Int × Int)}

instance : Decidable (inv.IsPlayer id) := inferInstanceAs (Decidable (_ ∧ _))

instance : Decidable (inv.IsItem item) := inferInstanceAs (Decidable (_ ∧ _))

@[simp] theorem length_withAmounts : (inv.withAmounts id f).inventorys.length = inv.inventorys.length :=
  List.length_modify _ _ _

@[simp] theorem isPlayer_withAmounts : (inv.withAmounts id f).IsPlayer id' ↔ inv.IsPlayer id' := by
  unfold IsPlayer
  rw [length_withAmounts]

@[simp] theorem isItem_withAmounts : (inv.withAmounts id f).IsItem item ↔ inv.IsItem item := Iff.rfl

@[simp] theorem withAmounts_withAmounts : (inv.withAmounts id f).withAmounts id g = inv.withAmounts id g := by
  unfold withAmounts
  congr 1
  refine List.ext_getElem? fun i => ?_
  rw [List.getElem?_modify, List.getElem?_modify, List.getElem?_modify]
  cases inv.inventorys[i]? with
  | none => rfl
  | some p =>
    by_cases h : id.toNat = i
    · simp [h]
    · simp [h]

/-- The player behind an id. -/
theorem IsPlayer.player (hid : inv.IsPlayer id) : ∃ p, inv.inventorys[id.toNat]? = some p ∧ p ∈ inv.inventorys := by
  obtain ⟨h0, hlt⟩ := hid
  have hlt' : id.toNat < inv.inventorys.length := by omega
  exact ⟨_, List.getElem?_eq_getElem hlt', List.getElem_mem hlt'⟩

theorem held_eq {p : PlayerInventory} (h : inv.inventorys[id.toNat]? = some p) : inv.held id = p.amount := by
  funext item
  unfold held
  rw [h]
  rfl

theorem held_nonneg (hnn : inv.NonNegative) : 0 ≤ inv.held id item := by
  unfold held
  cases hp : inv.inventorys[id.toNat]? with
  | none => exact le_refl 0
  | some p =>
    change 0 ≤ p.amount item
    cases item with
    | negSucc _ => exact le_refl 0
    | ofNat i =>
      cases he : p.ownedItems[i]? with
      | none =>
        change 0 ≤ (p.ownedItems[i]?.map Prod.snd).getD 0
        rw [he]
        exact le_refl 0
      | some e =>
        change 0 ≤ p.amount i
        rw [PlayerInventory.amount_eq he]
        exact hnn p (List.mem_of_getElem? hp) e (List.mem_of_getElem? he)

theorem withAmounts_held (hid : inv.IsPlayer id) : inv.withAmounts id (inv.held id) = inv := by
  obtain ⟨p, hp, _⟩ := hid.player
  have hsame : (inv.withAmounts id (inv.held id)).inventorys = inv.inventorys := by
    refine List.ext_getElem? fun i => ?_
    change (inv.inventorys.modify _ _)[i]? = _
    rw [List.getElem?_modify]
    by_cases h : id.toNat = i
    · subst h
      rw [hp, held_eq hp]
      simp [PlayerInventory.withAmounts_amount]
    · simp [h]
  exact congrArg (fun players => { inv with inventorys := players }) hsame

namespace Created

theorem length_ownedItems (h : inv.Created) {p : PlayerInventory} (hp : p ∈ inv.inventorys) :
    p.ownedItems.length = inv.getMaxItemCount.toNat := by
  have hlen := congrArg List.length (h.items p hp)
  rw [List.length_map, List.length_take] at hlen
  have hle : inv.getMaxItemCount ≤ inv.knownItems.length := intOf_le _
  omega

/-- The item behind an index. -/
theorem getElem?_item (h : inv.Created) {p : PlayerInventory} (hp : p ∈ inv.inventorys) (hitem : inv.IsItem item) :
    ∃ e, p.ownedItems[item.toNat]? = some e ∧ InInt e.2 := by
  have hlt : item.toNat < p.ownedItems.length := by
    rw [h.length_ownedItems hp]
    obtain ⟨h0, hlt⟩ := hitem
    omega
  exact ⟨_, List.getElem?_eq_getElem hlt, h.amounts p hp _ (List.getElem_mem hlt)⟩

theorem sizeT_player (h : inv.Created) (hid : inv.IsPlayer id) : sizeT id = id.toNat := by
  have := h.bounded
  obtain ⟨h0, hlt⟩ := hid
  unfold maxSize at this
  unfold sizeT
  omega

theorem inInt_held (h : inv.Created) (hid : inv.IsPlayer id) (hitem : inv.IsItem item) : InInt (inv.held id item) := by
  obtain ⟨p, hp, hmem⟩ := hid.player
  obtain ⟨e, he, hint⟩ := h.getElem?_item hmem hitem
  rw [held_eq hp, ← Int.toNat_of_nonneg hitem.1, PlayerInventory.amount_eq he]
  exact hint

/-- A player has nothing of what is not in the catalogue. -/
theorem held_eq_zero (h : inv.Created) (hid : inv.IsPlayer id) (hitem : ¬inv.IsItem item) : inv.held id item = 0 := by
  obtain ⟨p, hp, hmem⟩ := hid.player
  rw [held_eq hp]
  cases item with
  | negSucc _ => rfl
  | ofNat i =>
    refine PlayerInventory.amount_eq_zero ?_
    rw [h.length_ownedItems hmem]
    unfold IsItem at hitem
    simp only [Int.ofNat_eq_natCast] at hitem
    omega

theorem sizeT_item (hitem : inv.IsItem item) : sizeT item = item.toNat := by
  have hint := (inInt_intOf inv.knownItems.length).2
  obtain ⟨h0, hlt⟩ := hitem
  unfold getMaxItemCount at hlt
  exact sizeT_of_nonneg h0 (by omega)

theorem held_withAmounts (h : inv.Created) (hid : inv.IsPlayer id) (hitem : inv.IsItem item) :
    (inv.withAmounts id f).held id item = f item := by
  obtain ⟨p, hp, hmem⟩ := hid.player
  have hp' : (inv.withAmounts id f).inventorys[id.toNat]? = some (p.withAmounts f) := by
    change (inv.inventorys.modify _ _)[id.toNat]? = _
    rw [List.getElem?_modify, hp]
    simp
  have hlen := h.length_ownedItems hmem
  obtain ⟨h0, hlt⟩ := hitem
  rw [held_eq hp', ← Int.toNat_of_nonneg h0]
  exact PlayerInventory.amount_withAmounts (by omega)

/-- Amounts of items, written for a player, keep the inventory well formed. -/
theorem withAmounts (h : inv.Created) (hf : ∀ item, inv.IsItem item → InInt (f item)) :
    (inv.withAmounts id f).Created := by
  have hmem : ∀ q ∈ (inv.withAmounts id f).inventorys,
      q ∈ inv.inventorys ∨ ∃ p ∈ inv.inventorys, q = p.withAmounts f := by
    intro q hq
    obtain ⟨i, hi⟩ := List.mem_iff_getElem?.mp hq
    change (inv.inventorys.modify _ _)[i]? = some q at hi
    rw [List.getElem?_modify] at hi
    cases hp : inv.inventorys[i]? with
    | none => simp [hp] at hi
    | some p =>
      have hp' := List.mem_of_getElem? hp
      rw [hp] at hi
      by_cases heq : id.toNat = i
      · exact .inr ⟨p, hp', by simpa [heq] using hi.symm⟩
      · exact .inl (by simpa [heq] using (by simpa [heq] using hi : p = q) ▸ hp')
  refine ⟨length_withAmounts.trans_le h.bounded, fun q hq => ?_, fun q hq e he => ?_⟩
  · rcases hmem q hq with hq | ⟨p, hp, rfl⟩
    · exact h.items q hq
    · exact PlayerInventory.map_fst_withAmounts.trans (h.items p hp)
  · rcases hmem q hq with hq | ⟨p, hp, rfl⟩
    · exact h.amounts q hq e he
    · obtain ⟨i, hi⟩ := List.mem_iff_getElem?.mp he
      rw [PlayerInventory.getElem?_withAmounts] at hi
      obtain ⟨e', he', rfl⟩ := Option.map_eq_some_iff.mp hi
      have hlt := (List.getElem?_eq_some_iff.mp he').1
      rw [h.length_ownedItems hp] at hlt
      exact hf i ⟨by omega, by omega⟩

/-- An inventory determines the amounts it was given. -/
theorem withAmounts_inj (h : inv.Created) (hid : inv.IsPlayer id) (heq : inv.withAmounts id f = inv.withAmounts id g)
    (hitem : inv.IsItem item) : f item = g item := by
  rw [← h.held_withAmounts (f := f) hid hitem, heq, h.held_withAmounts hid hitem]

/-! ## The steps of the loops -/

theorem amountAt_eq (h : inv.Created) (hid : inv.IsPlayer id) (hitem : inv.IsItem item) :
    inv.amountAt id item = .ok (inv.held id item) := by
  obtain ⟨p, hp, hmem⟩ := hid.player
  obtain ⟨e, he, _⟩ := h.getElem?_item hmem hitem
  have hamount : p.amount item = e.2 := by
    rw [← Int.toNat_of_nonneg hitem.1]
    exact PlayerInventory.amount_eq he
  unfold amountAt
  rw [h.sizeT_player hid, sizeT_item hitem, elemAt_eq_ok.mpr hp, ok_bind, elemAt_eq_ok.mpr he, ok_bind, held_eq hp, hamount]
  rfl

/-- A write in place replaces one amount of one player. -/
theorem setAmountAt_eq (h : inv.Created) (hid : inv.IsPlayer id) (hitem : inv.IsItem item) (v : Int) :
    inv.setAmountAt id item v = .ok (inv.withAmounts id (Function.update (inv.held id) item v)) := by
  obtain ⟨p, hp, hmem⟩ := hid.player
  obtain ⟨⟨it, a⟩, he, _⟩ := h.getElem?_item hmem hitem
  have hlt := (List.getElem?_eq_some_iff.mp hp).1
  have hlt' := (List.getElem?_eq_some_iff.mp he).1
  have hwrite := PlayerInventory.withAmounts_update he v
  rw [Int.toNat_of_nonneg hitem.1] at hwrite
  unfold setAmountAt
  rw [h.sizeT_player hid, sizeT_item hitem, elemAt_eq_ok.mpr hp, ok_bind, elemAt_eq_ok.mpr he, ok_bind]
  dsimp only
  rw [setAt_eq_ok.mpr ⟨hlt', rfl⟩, ok_bind, setAt_eq_ok.mpr ⟨hlt, rfl⟩, ok_bind]
  unfold Inventar.withAmounts
  rw [held_eq hp, List.modify_eq_set_getElem?, hp, ← hwrite]
  rfl

/-- One amount written keeps the inventory well formed. -/
theorem update (h : inv.Created) (hid : inv.IsPlayer id) {v : Int} (hv : InInt v) :
    (inv.withAmounts id (Function.update (inv.held id) item v)).Created := by
  refine h.withAmounts fun k hk => ?_
  rw [Function.update_apply]
  split
  · exact hv
  · exact h.inInt_held hid hk

/-- What was written can be read again: the book of the player is the one that was written. -/
theorem held_update (h : inv.Created) (hid : inv.IsPlayer id) (hitem : inv.IsItem item) {v : Int} (hv : InInt v) :
    (inv.withAmounts id (Function.update (inv.held id) item v)).held id = Function.update (inv.held id) item v := by
  funext k
  by_cases hk : inv.IsItem k
  · exact h.held_withAmounts hid hk
  · have hne : k ≠ item := fun heq => hk (heq ▸ hitem)
    rw [Function.update_of_ne hne, h.held_eq_zero hid hk]
    exact (h.update hid hv).held_eq_zero (isPlayer_withAmounts.mpr hid) hk

/-- One round of `addItemtoPlayer`. -/
theorem addItem_eq (h : inv.Created) (hid : inv.IsPlayer id) {e : Int × Int} (hitem : inv.IsItem e.1) :
    addItem id inv e = int (inv.held id e.1 + e.2) >>= fun sum =>
      .ok (inv.withAmounts id (Function.update (inv.held id) e.1 sum)) := by
  unfold addItem
  rw [h.amountAt_eq hid hitem, ok_bind]
  exact congrArg (int _ >>= ·) (funext fun sum => h.setAmountAt_eq hid hitem sum)

/-- One round of `removeItemFromPlayer`: the difference, or zero where it is negative. -/
theorem removeItem_eq (h : inv.Created) (hid : inv.IsPlayer id) {e : Int × Int} (hitem : inv.IsItem e.1) :
    removeItem id inv e = int (inv.held id e.1 - e.2) >>= fun left =>
      .ok (inv.withAmounts id (Function.update (inv.held id) e.1 (max left 0))) := by
  unfold removeItem
  rw [h.amountAt_eq hid hitem, ok_bind]
  cases hleft : int (inv.held id e.1 - e.2) with
  | error _ => rfl
  | ok left =>
    have hint : InInt left := (int_eq_ok.mp hleft).2 ▸ (int_eq_ok.mp hleft).1
    have hnext : (inv.withAmounts id (Function.update (inv.held id) e.1 left)).Created := h.update hid hint
    have hid' : (inv.withAmounts id (Function.update (inv.held id) e.1 left)).IsPlayer id := isPlayer_withAmounts.mpr hid
    rw [ok_bind, h.setAmountAt_eq hid hitem, ok_bind, hnext.amountAt_eq hid' hitem, ok_bind,
      h.held_update hid hitem hint, Function.update_self, ok_bind]
    split
    · rename_i hneg
      rw [hnext.setAmountAt_eq hid' hitem, h.held_update hid hitem hint, withAmounts_withAmounts, Function.update_idem,
        max_eq_right (le_of_lt hneg)]
    · rename_i hnn
      rw [max_eq_left (not_lt.mp hnn)]
      rfl

/-- An index that is no item's reaches past the amounts of a player. -/
theorem amountAt_bad (h : inv.Created) (hid : inv.IsPlayer id) (hint : InInt item) (hitem : ¬inv.IsItem item) :
    inv.amountAt id item = .error .badAccess := by
  obtain ⟨p, hp, hmem⟩ := hid.player
  have hlen := h.length_ownedItems hmem
  have hmax := (inInt_intOf inv.knownItems.length).2
  have hout : p.ownedItems.length ≤ sizeT item := by
    unfold IsItem at hitem
    unfold getMaxItemCount at *
    unfold InInt at hint
    unfold sizeT
    omega
  have hfault : elemAt p.ownedItems (sizeT item) = .error .badAccess := by
    unfold elemAt
    rw [List.getElem?_eq_none hout]
  unfold amountAt
  rw [h.sizeT_player hid, elemAt_eq_ok.mpr hp, ok_bind, hfault, error_bind]

/-- What one round can run into is an overflow of an `int`; otherwise the inventory it leaves is well formed. -/
theorem addItem_step (h : inv.Created) (hid : inv.IsPlayer id) {e : Int × Int} (hitem : inv.IsItem e.1) :
    (∀ f, addItem id inv e = .error f → f = .overflow) ∧ ∀ t, addItem id inv e = .ok t →
      t.Created ∧ t.IsPlayer id ∧ t.knownItems = inv.knownItems := by
  rw [h.addItem_eq hid hitem]
  constructor
  · intro f hf
    cases hsum : int (inv.held id e.1 + e.2) with
    | error g =>
      rw [hsum, error_bind] at hf
      cases hf
      exact eq_overflow_of_int hsum
    | ok sum =>
      rw [hsum, ok_bind] at hf
      cases hf
  · intro t ht
    obtain ⟨sum, hsum, ht⟩ := bind_eq_ok.mp ht
    cases ht
    obtain ⟨hint, rfl⟩ := int_eq_ok.mp hsum
    exact ⟨h.update hid hint, isPlayer_withAmounts.mpr hid, rfl⟩

theorem removeItem_step (h : inv.Created) (hid : inv.IsPlayer id) {e : Int × Int} (hitem : inv.IsItem e.1) :
    (∀ f, removeItem id inv e = .error f → f = .overflow) ∧ ∀ t, removeItem id inv e = .ok t →
      t.Created ∧ t.IsPlayer id ∧ t.knownItems = inv.knownItems := by
  rw [h.removeItem_eq hid hitem]
  constructor
  · intro f hf
    cases hleft : int (inv.held id e.1 - e.2) with
    | error g =>
      rw [hleft, error_bind] at hf
      cases hf
      exact eq_overflow_of_int hleft
    | ok left =>
      rw [hleft, ok_bind] at hf
      cases hf
  · intro t ht
    obtain ⟨left, hleft, ht⟩ := bind_eq_ok.mp ht
    cases ht
    obtain ⟨hint, rfl⟩ := int_eq_ok.mp hleft
    exact ⟨h.update hid (inInt_max hint), isPlayer_withAmounts.mpr hid, rfl⟩

/-! ## The loops -/

/-- What a loop over a list leaves behind: the inventory with another book for the player. -/
theorem addItems (h : inv.Created) (hid : inv.IsPlayer id) (hcount : ∀ e ∈ count, inv.IsItem e.1)
    (hrun : count.foldlM (addItem id) inv = .ok inv') :
    inv' = inv.withAmounts id (give (inv.held id) count) ∧ inv'.Created := by
  induction count generalizing inv with
  | nil =>
    cases hrun
    rw [give_nil, withAmounts_held hid]
    exact ⟨rfl, h⟩
  | cons e count ih =>
    rw [List.forall_mem_cons] at hcount
    rw [List.foldlM_cons, h.addItem_eq hid hcount.1] at hrun
    obtain ⟨_, hstep, hrun⟩ := bind_eq_ok.mp hrun
    obtain ⟨sum, hsum, hstep⟩ := bind_eq_ok.mp hstep
    cases hstep
    obtain ⟨hint, rfl⟩ := int_eq_ok.mp hsum
    obtain ⟨rfl, hcreated⟩ := ih (h.update hid hint) (isPlayer_withAmounts.mpr hid) hcount.2 hrun
    rw [h.held_update hid hcount.1 hint, withAmounts_withAmounts, ← give_cons] at hcreated ⊢
    exact ⟨rfl, hcreated⟩

/-- The loop returns where no amount on the way leaves the range of `int`. -/
theorem addItems_returns (h : inv.Created) (hid : inv.IsPlayer id) (hcount : ∀ e ∈ count, inv.IsItem e.1)
    (hints : ∀ p, p <+: count → ∀ e ∈ count, InInt (give (inv.held id) p e.1)) :
    ∃ inv', count.foldlM (addItem id) inv = .ok inv' := by
  induction count generalizing inv with
  | nil => exact ⟨inv, rfl⟩
  | cons e count ih =>
    rw [List.forall_mem_cons] at hcount
    have hint : InInt (inv.held id e.1 + e.2) := by
      have := hints [e] (List.prefix_append [e] count) e List.mem_cons_self
      rwa [give_cons, give_nil, Function.update_self] at this
    rw [List.foldlM_cons, h.addItem_eq hid hcount.1, int_of_inInt hint, ok_bind, ok_bind]
    refine ih (h.update hid hint) (isPlayer_withAmounts.mpr hid) hcount.2 fun p hp e' he' => ?_
    rw [h.held_update hid hcount.1 hint, ← give_cons]
    exact hints (e :: p) (List.cons_prefix_cons.mpr ⟨rfl, hp⟩) e' (List.mem_cons_of_mem _ he')

theorem removeItems (h : inv.Created) (hid : inv.IsPlayer id) (hcount : ∀ e ∈ count, inv.IsItem e.1)
    (hrun : count.foldlM (removeItem id) inv = .ok inv') :
    inv' = inv.withAmounts id (draw (inv.held id) count) ∧ inv'.Created := by
  induction count generalizing inv with
  | nil =>
    cases hrun
    rw [draw, withAmounts_held hid]
    exact ⟨rfl, h⟩
  | cons e count ih =>
    rw [List.forall_mem_cons] at hcount
    rw [List.foldlM_cons, h.removeItem_eq hid hcount.1] at hrun
    obtain ⟨_, hstep, hrun⟩ := bind_eq_ok.mp hrun
    obtain ⟨left, hleft, hstep⟩ := bind_eq_ok.mp hstep
    cases hstep
    obtain ⟨hint, rfl⟩ := int_eq_ok.mp hleft
    have hclamp : InInt (max (inv.held id e.1 - e.2) 0) := inInt_max hint
    obtain ⟨rfl, hcreated⟩ := ih (h.update hid hclamp) (isPlayer_withAmounts.mpr hid) hcount.2 hrun
    rw [h.held_update hid hcount.1 hclamp, withAmounts_withAmounts, ← draw] at hcreated ⊢
    exact ⟨rfl, hcreated⟩

/-- Taking non-negative amounts from what is not negative stays in the range of `int`. -/
theorem removeItems_returns (h : inv.Created) (hid : inv.IsPlayer id) (hheld : ∀ item, 0 ≤ inv.held id item)
    (hcount : ∀ e ∈ count, inv.IsItem e.1 ∧ 0 ≤ e.2 ∧ InInt e.2) :
    ∃ inv', count.foldlM (removeItem id) inv = .ok inv' := by
  induction count generalizing inv with
  | nil => exact ⟨inv, rfl⟩
  | cons e count ih =>
    rw [List.forall_mem_cons] at hcount
    obtain ⟨⟨hitem, hnn, hamount⟩, hrest⟩ := hcount
    have hint : InInt (inv.held id e.1 - e.2) := by
      have := hheld e.1
      have := h.inInt_held hid hitem
      unfold InInt at *
      omega
    have hclamp : InInt (max (inv.held id e.1 - e.2) 0) := inInt_max hint
    rw [List.foldlM_cons, h.removeItem_eq hid hitem, int_of_inInt hint, ok_bind, ok_bind]
    refine ih (h.update hid hclamp) (isPlayer_withAmounts.mpr hid) (fun item => ?_) hrest
    rw [h.held_update hid hitem hclamp, Function.update_apply]
    split
    · exact le_max_right _ _
    · exact hheld item

/-- The loop of `hasPlayerItems` looks at every entry by itself. -/
theorem hasItems_eq (h : inv.Created) (hid : inv.IsPlayer id) (hcount : ∀ e ∈ count, inv.IsItem e.1) {i : Nat}
    (hlen : i + count.length < 2 ^ 31) :
    inv.hasItems id i count = .ok (decide (∀ e ∈ count, e.2 ≤ inv.held id e.1)) := by
  induction count generalizing i with
  | nil => simp [hasItems]
  | cons e count ih =>
    obtain ⟨item, amount⟩ := e
    rw [List.forall_mem_cons] at hcount
    rw [List.length_cons] at hlen
    have hint : InInt ((i : Int) + 1) := by
      unfold InInt
      omega
    rw [hasItems, h.amountAt_eq hid hcount.1, ok_bind]
    split
    · rename_i hlt
      have : ¬∀ e ∈ (item, amount) :: count, e.2 ≤ inv.held id e.1 := fun hall =>
        absurd (hall _ List.mem_cons_self) (not_le.mpr hlt)
      rw [decide_eq_false this]
      rfl
    · rename_i hge
      rw [int_of_inInt hint, ok_bind, ih hcount.2 (by omega)]
      congr 1
      rw [decide_eq_decide, List.forall_mem_cons]
      exact (and_iff_right (not_lt.mp hge)).symm

/-- A loop that answers yes has counted its entries with an `int`. -/
theorem length_of_hasItems {i : Nat} (hhas : inv.hasItems id i count = .ok true) (hne : count ≠ []) :
    i + count.length < 2 ^ 31 := by
  induction count generalizing i with
  | nil => exact absurd rfl hne
  | cons e count ih =>
    rw [hasItems] at hhas
    obtain ⟨a, _, hhas⟩ := bind_eq_ok.mp hhas
    split at hhas
    · cases hhas
    · obtain ⟨_, hint, hhas⟩ := bind_eq_ok.mp hhas
      have := (int_eq_ok.mp hint).1.2
      rw [List.length_cons]
      rcases count with _ | ⟨f, count⟩
      · simp only [List.length_nil]
        omega
      · have := ih hhas (List.cons_ne_nil _ _)
        omega

/-! ## The guards -/

/-- For a player's id only the lengths decide: a list with as many entries as there are players is turned away. -/
theorem refuses_eq (h : inv.Created) (hid : inv.IsPlayer id) :
    inv.refuses id count = decide (inv.inventorys.length ≤ count.length) := by
  have hbound := h.bounded
  have hsize := h.sizeT_player hid
  have hlast : inv.lastPlace = inv.inventorys.length - 1 := by
    obtain ⟨h0, hlt⟩ := hid
    unfold maxSize at hbound
    unfold lastPlace sizeT
    omega
  obtain ⟨h0, hlt⟩ := hid
  unfold refuses
  rw [hlast, hsize, decide_eq_false (by omega), Bool.false_or, decide_eq_decide]
  omega

/-- Where there are players, an id that is none of theirs is turned away. -/
theorem refuses_stranger (h : inv.Created) (hint : InInt id) (hid : ¬inv.IsPlayer id)
    (hsome : id < 0 ∨ inv.inventorys ≠ []) : inv.refuses id count = true := by
  have hbound := h.bounded
  unfold maxSize at hbound
  unfold IsPlayer at hid
  unfold InInt at hint
  unfold refuses lastPlace
  rw [Bool.or_eq_true, decide_eq_true_iff]
  refine .inl ?_
  rcases hsome with hneg | hne
  · exact .inl hneg
  · have hpos := List.length_pos_iff.mpr hne
    unfold sizeT
    omega

/-- Without players no id is turned away, except a negative one. -/
theorem refuses_nobody (hnone : inv.inventorys = []) (h0 : 0 ≤ id) (hcount : count.length ≤ maxSize) :
    inv.refuses id count = false := by
  have hlast : inv.lastPlace = 2 ^ 64 - 1 := by
    unfold lastPlace sizeT
    rw [hnone]
    rfl
  unfold maxSize at hcount
  unfold refuses
  rw [hlast, Bool.or_eq_false_iff, decide_eq_false_iff_not, decide_eq_false_iff_not]
  unfold sizeT
  omega

/-- An addition that returned gave the list to the player. -/
theorem eq_of_addItemtoPlayer (h : inv.Created) (hid : inv.IsPlayer id) (hcount : ∀ e ∈ count, inv.IsItem e.1)
    (hlen : count.length < inv.inventorys.length) (hadd : inv.addItemtoPlayer id count = .ok inv') :
    inv' = inv.withAmounts id (give (inv.held id) count) ∧ inv'.Created := by
  unfold addItemtoPlayer at hadd
  rw [h.refuses_eq hid, if_neg (by simpa using hlen)] at hadd
  exact h.addItems hid hcount (foldlM_of_forEach hadd)

end Created

end Inventar

end SiedlerServer
