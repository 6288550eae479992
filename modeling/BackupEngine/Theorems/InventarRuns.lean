import BackupEngine.Lemmas.Inventar

/-!
# Runs of the inventory

Whatever calls were made, every player has an amount of each item of the catalogue. The guards keep foreign ids away from this
table as long as there is a player; without one `inventorys.size() - 1` is the largest `size_t` and lets every id through.
No guard looks at the indices of the items. And the amounts stay non-negative as long as nothing is added that owes more
than the player has: only the removal stops at zero.
-/

namespace SiedlerServer

open Cpp Ledger Transition

namespace Inventar

variable {inv inv' : Inventar} {id : Int} {count : List (Int × Int)}

/-! ## Every reachable inventory is well formed -/

theorem created_initial (knownItems : List Item) : (initial knownItems).Created :=
  ⟨Nat.zero_le _, fun _ hp => absurd hp (List.not_mem_nil), fun _ hp => absurd hp (List.not_mem_nil)⟩

/-- A new player is added behind the others and has nothing of every item. -/
theorem addPlayer_ok (hadd : inv.addPlayer = .ok inv') :
    inv.inventorys.length < maxSize ∧ ∃ p, inv' = { inv with inventorys := inv.inventorys ++ [p] } ∧
      p.ownedItems = (inv.knownItems.take inv.getMaxItemCount.toNat).map fun it => (it, 0) := by
  unfold addPlayer at hadd
  split at hadd
  · rename_i hlt
    cases hadd
    refine ⟨hlt, _, rfl, ?_⟩
    simp only [playerInventory]
  · cases hadd

theorem Created.addPlayer (h : inv.Created) (hadd : inv.addPlayer = .ok inv') : inv'.Created := by
  obtain ⟨hlt, p, rfl, howned⟩ := addPlayer_ok hadd
  refine ⟨?_, fun q hq => ?_, fun q hq e he => ?_⟩
  · rw [List.length_append, List.length_singleton]
    omega
  · rcases List.mem_append.mp hq with hq | hq
    · exact h.items q hq
    · obtain rfl := List.mem_singleton.mp hq
      rw [howned, List.map_map]
      exact List.map_id _
  · rcases List.mem_append.mp hq with hq | hq
    · exact h.amounts q hq e he
    · obtain rfl := List.mem_singleton.mp hq
      rw [howned] at he
      obtain ⟨it, _, rfl⟩ := List.mem_map.mp he
      exact (by decide : InInt 0)

theorem NonNegative.addPlayer (hnn : inv.NonNegative) (hadd : inv.addPlayer = .ok inv') : inv'.NonNegative := by
  obtain ⟨_, p, rfl, howned⟩ := addPlayer_ok hadd
  intro q hq e he
  rcases List.mem_append.mp hq with hq | hq
  · exact hnn q hq e he
  · obtain rfl := List.mem_singleton.mp hq
    rw [howned] at he
    obtain ⟨it, _, rfl⟩ := List.mem_map.mp he
    exact le_refl 0

/-- The two loops that write, told apart by what they write. -/
structure Writes (body : Int → Inventar → Int × Int → Comp Inventar) : Prop where
  outside : ∀ {inv : Inventar} {id : Int} {e : Int × Int} {f : Fault}, inv.amountAt id e.1 = .error f →
    body id inv e = .error f
  inside : ∀ {inv : Inventar} {id : Int} {e : Int × Int}, inv.Created → inv.IsPlayer id → inv.IsItem e.1 →
    (∀ f, body id inv e = .error f → f = .overflow) ∧ ∀ t, body id inv e = .ok t →
      t.Created ∧ t.IsPlayer id ∧ t.knownItems = inv.knownItems

theorem writes_addItem : Writes addItem where
  outside := fun h => by
    unfold addItem
    rw [h, error_bind]
  inside := fun h hid hitem => h.addItem_step hid hitem

theorem writes_removeItem : Writes removeItem where
  outside := fun h => by
    unfold removeItem
    rw [h, error_bind]
  inside := fun h hid hitem => h.removeItem_step hid hitem

/-- Without players every access to one is outside. -/
theorem amountAt_nobody (hnone : inv.inventorys = []) (item : Int) : inv.amountAt id item = .error .badAccess := by
  unfold amountAt elemAt
  rw [hnone]
  rfl

section Writes

variable {body : Int → Inventar → Int × Int → Comp Inventar}

/-- A loop over entries of type `int` that returns leaves the inventory well formed. -/
theorem Created.of_forEach (hbody : Writes body) (h : inv.Created) (hid : inv.IsPlayer id)
    (hcount : ∀ e ∈ count, InInt e.1) (hrun : forEach (body id) 0 count inv = .ok inv') : inv'.Created := by
  have hkept := foldlM_prefix_invariant (fun _ s => s.Created ∧ s.IsPlayer id) count
    (fun p e s t hp hs hstep => ?_) ⟨h, hid⟩ (foldlM_of_forEach hrun)
  · exact hkept.1
  · obtain ⟨hcreated, hplayer⟩ := hs
    have hmem : e ∈ count := hp.subset (List.mem_append_right _ (List.mem_singleton_self e))
    by_cases hitem : s.IsItem e.1
    · obtain ⟨ht, htid, _⟩ := (hbody.inside hcreated hplayer hitem).2 t hstep
      exact ⟨ht, htid⟩
    · rw [hbody.outside (hcreated.amountAt_bad hplayer (hcount e hmem) hitem)] at hstep
      cases hstep

/-- So does the call around it. -/
theorem Created.of_call (hbody : Writes body) (h : inv.Created) (hint : InInt id) (hcount : ∀ e ∈ count, InInt e.1)
    (hrun : (if inv.refuses id count then .ok inv else forEach (body id) 0 count inv) = .ok inv') : inv'.Created := by
  split at hrun
  · cases hrun
    exact h
  · rename_i hpass
    by_cases hid : inv.IsPlayer id
    · exact h.of_forEach hbody hid hcount hrun
    · -- only without players does an id pass that is none of theirs, and then the list is empty
      have hnone : inv.inventorys = [] := by
        by_contra hne
        exact hpass (h.refuses_stranger hint hid (.inr hne))
      cases count with
      | nil =>
        cases hrun
        exact h
      | cons e count =>
        rw [forEach, hbody.outside (amountAt_nobody hnone e.1), error_bind] at hrun
        cases hrun

end Writes

/-- A call with arguments of the right types leaves the inventory well formed. -/
theorem Created.run (h : inv.Created) {call : InventarCall} (htyped : call.Typed) (hrun : call.run inv = .ok inv') :
    inv'.Created := by
  cases call with
  | addPlayer => exact h.addPlayer hrun
  | addItemtoPlayer id count => exact h.of_call writes_addItem htyped.1 (fun e he => (htyped.2.2 e he).1) hrun
  | removeItemFromPlayer id count => exact h.of_call writes_removeItem htyped.1 (fun e he => (htyped.2.2 e he).1) hrun

/-- Every reachable inventory is well formed. -/
theorem created_of_run {knownItems : List Item} {calls : List InventarCall} (hrun : Run machine (initial knownItems) calls inv) :
    inv.Created := by
  refine hrun.invariant (fun _ inv => inv.Created) (created_initial knownItems) ?_
  rintro _ inv call inv' h ⟨htyped, hstep⟩
  exact h.run htyped hstep

/-! ## Index safety -/

/-- None of the three functions indexes outside, and an id that is no player's is answered with no and changes nothing. -/
structure Guarded (inv : Inventar) (id : Int) (count : List (Int × Int)) : Prop where
  has : inv.hasPlayerItems id count ≠ .error .badAccess
  remove : inv.removeItemFromPlayer id count ≠ .error .badAccess
  add : inv.addItemtoPlayer id count ≠ .error .badAccess
  stranger : ¬inv.IsPlayer id → inv.hasPlayerItems id count = .ok false ∧
    inv.removeItemFromPlayer id count = .ok inv ∧ inv.addItemtoPlayer id count = .ok inv

/-- The id is negative, or there is a player and, where a list of these indices passes the guards, they lie inside the
catalogue: the first `2 ^ 31` of them, as many as the counter of the loops reaches. -/
def Indexed (inv : Inventar) (id : Int) (items : List Int) : Prop :=
  id < 0 ∨ inv.inventorys ≠ [] ∧
    (inv.IsPlayer id → items.length < inv.inventorys.length → ∀ item ∈ items.take (2 ^ 31), inv.IsItem item)

theorem guarded_of_refuses (hturned : inv.refuses id count = true) : inv.Guarded id count := by
  have hhas : inv.hasPlayerItems id count = .ok false := if_pos hturned
  have hremove : inv.removeItemFromPlayer id count = .ok inv := if_pos hturned
  have hadd : inv.addItemtoPlayer id count = .ok inv := if_pos hturned
  refine ⟨?_, ?_, ?_, fun _ => ⟨hhas, hremove, hadd⟩⟩
  · rw [hhas]
    nofun
  · rw [hremove]
    nofun
  · rw [hadd]
    nofun

/-- The loop of the check stays inside on entries that name items. -/
theorem Created.hasItems_inside (h : inv.Created) (hid : inv.IsPlayer id) {i : Nat} (hi : i < 2 ^ 31)
    (hitems : ∀ e ∈ count.take (2 ^ 31 - i), inv.IsItem e.1) : inv.hasItems id i count ≠ .error .badAccess := by
  induction count generalizing i with
  | nil =>
    intro h
    cases h
  | cons e count ih =>
    obtain ⟨n, hn⟩ : ∃ n, 2 ^ 31 - i = n + 1 := ⟨2 ^ 31 - i - 1, by omega⟩
    rw [hn, List.take_succ_cons, List.forall_mem_cons] at hitems
    obtain ⟨item, amount⟩ := e
    rw [hasItems, h.amountAt_eq hid hitems.1, ok_bind]
    split
    · intro h
      cases h
    · by_cases hint : InInt ((i : Int) + 1)
      · have hlt : i + 1 < 2 ^ 31 := by
          have := hint.2
          omega
        have hnext : n = 2 ^ 31 - (i + 1) := by omega
        rw [int_of_inInt hint, ok_bind]
        exact ih hlt (hnext ▸ hitems.2)
      · unfold int
        rw [if_neg hint, error_bind]
        intro h
        cases h

/-- The loops that write stay inside on entries that name items. -/
theorem Created.forEach_inside {body : Int → Inventar → Int × Int → Comp Inventar} (hbody : Writes body) (h : inv.Created)
    (hid : inv.IsPlayer id) (hitems : ∀ e ∈ count.take (2 ^ 31), inv.IsItem e.1) :
    forEach (body id) 0 count inv ≠ .error .badAccess := by
  intro hfault
  refine forEach_error (Q := (· ≠ .badAccess)) nofun
    (fun s => s.Created ∧ s.IsPlayer id ∧ s.knownItems = inv.knownItems) ?_ ⟨h, hid, rfl⟩ (by decide) hfault rfl
  rintro s e he ⟨hs, hsid, hknown⟩
  have hitem : s.IsItem e.1 := by
    have := hitems e he
    unfold IsItem getMaxItemCount at *
    rwa [hknown]
  obtain ⟨hfaults, hkeep⟩ := hbody.inside hs hsid hitem
  refine ⟨fun f hf => ?_, fun t ht => ?_⟩
  · rw [hfaults f hf]
    nofun
  · obtain ⟨ht, htid, htknown⟩ := hkeep t ht
    exact ⟨ht, htid, htknown.trans hknown⟩

theorem Created.guarded (h : inv.Created) (hint : InInt id) (hindexed : inv.Indexed id (count.map Prod.fst)) :
    inv.Guarded id count := by
  by_cases hid : inv.IsPlayer id
  · rcases lt_or_ge count.length inv.inventorys.length with hlen | hlen
    · have hpass : ¬inv.refuses id count = true := by
        rw [h.refuses_eq hid]
        simpa using hlen
      have hitems : ∀ e ∈ count.take (2 ^ 31), inv.IsItem e.1 := by
        intro e he
        rcases hindexed with hneg | ⟨_, hinside⟩
        · exact absurd hid.1 (not_le.mpr hneg)
        · refine hinside hid (by rwa [List.length_map]) e.1 ?_
          rw [← List.map_take]
          exact List.mem_map_of_mem he
      refine ⟨?_, ?_, ?_, fun hnot => absurd hid hnot⟩
      · unfold hasPlayerItems
        rw [if_neg hpass]
        exact h.hasItems_inside hid (by decide) hitems
      · unfold removeItemFromPlayer
        rw [if_neg hpass]
        exact h.forEach_inside writes_removeItem hid hitems
      · unfold addItemtoPlayer
        rw [if_neg hpass]
        exact h.forEach_inside writes_addItem hid hitems
    · refine guarded_of_refuses ?_
      rw [h.refuses_eq hid]
      simpa using hlen
  · exact guarded_of_refuses (h.refuses_stranger hint hid (hindexed.imp_right And.left))

/-- Without players an id that is not negative is let through: the check says yes to an empty list and reads a player that is
not there for any other. -/
theorem not_guarded_nobody (hnone : inv.inventorys = []) (h0 : 0 ≤ id) (hlen : count.length ≤ maxSize) :
    ¬inv.Guarded id count := by
  intro hguarded
  have hstranger : ¬inv.IsPlayer id := by
    unfold IsPlayer
    rw [hnone]
    rintro ⟨_, hlt⟩
    exact absurd hlt (not_lt.mpr h0)
  have hhas := (hguarded.stranger hstranger).1
  unfold hasPlayerItems at hhas
  rw [Created.refuses_nobody hnone h0 hlen] at hhas
  cases count with
  | nil => cases hhas
  | cons e count =>
    obtain ⟨item, amount⟩ := e
    rw [if_neg Bool.false_ne_true, hasItems, amountAt_nobody hnone, error_bind] at hhas
    cases hhas

/-- An index that is no item's is reached by the loop of the addition, whose amounts of zero cannot overflow on the way. -/
theorem Created.not_guarded_bad (h : inv.Created) (hid : inv.IsPlayer id) {items : List Int}
    (hints : ∀ item ∈ items, InInt item) (hlen : items.length < inv.inventorys.length) {item : Int}
    (hmem : item ∈ items.take (2 ^ 31)) (hbad : ¬inv.IsItem item) : ¬inv.Guarded id (items.map fun item => (item, 0)) := by
  intro hguarded
  refine hguarded.add ?_
  obtain ⟨bad, hfirst⟩ : ∃ bad, (items.take (2 ^ 31)).find? (fun item => ¬inv.IsItem item) = some bad := by
    refine Option.isSome_iff_exists.mp (List.find?_isSome.mpr ⟨item, hmem, ?_⟩)
    simpa using hbad
  obtain ⟨hout, p, r, hsplit, hp⟩ := List.find?_eq_some_iff_append.mp hfirst
  have hpitems : ∀ e ∈ p.map fun item => (item, (0 : Int)), inv.IsItem e.1 := by
    intro e he
    obtain ⟨item, hmem, rfl⟩ := List.mem_map.mp he
    simpa using hp item hmem
  have hlist : items.map (fun item => (item, (0 : Int))) =
      p.map (fun item => (item, 0)) ++ (bad, 0) :: (r ++ items.drop (2 ^ 31)).map fun item => (item, 0) := by
    rw [← List.map_cons (f := fun item => (item, (0 : Int))), ← List.map_append, ← List.cons_append, ← List.append_assoc,
      ← hsplit, List.take_append_drop]
  have hcounted : 0 + (p.map fun item => (item, (0 : Int))).length < 2 ^ 31 := by
    have := congrArg List.length hsplit
    rw [List.length_take, List.length_append, List.length_cons] at this
    rw [List.length_map]
    omega
  -- the entries before the bad one give nothing, so the loop gets past them
  obtain ⟨inv', hreach⟩ := h.addItems_returns hid hpitems fun q hq e he => by
    have hnothing : asked q e.1 = 0 := asked_zero fun e he => by
      obtain ⟨item, _, rfl⟩ := List.mem_map.mp (hq.subset he)
      rfl
    rw [give, hnothing, add_zero]
    exact h.inInt_held hid (hpitems e he)
  obtain ⟨rfl, hcreated⟩ := h.addItems hid hpitems hreach
  have hfault := hcreated.amountAt_bad (isPlayer_withAmounts.mpr hid)
    (hints bad (List.mem_of_mem_take (hsplit ▸ List.mem_append_right _ List.mem_cons_self))) (by simpa using hout)
  unfold addItemtoPlayer
  rw [h.refuses_eq hid, if_neg (by simpa using hlen), hlist, forEach_append hcounted, hreach, ok_bind, forEach,
    writes_addItem.outside hfault, error_bind]

/-- For every reachable inventory, every id and every list of item indices: whatever amounts go with the indices, the three
functions stay inside the tables and keep foreign ids out exactly where the id is negative, or there is a player and the
indices that pass the guards are items. -/
theorem guarded_iff {knownItems : List Item} {calls : List InventarCall} (hrun : Run machine (initial knownItems) calls inv)
    (hint : InInt id) {items : List Int} (hlen : items.length ≤ maxSize) (hitems : ∀ item ∈ items, InInt item) :
    (∀ count, IsVector count → count.map Prod.fst = items → inv.Guarded id count) ↔ inv.Indexed id items := by
  have h := created_of_run hrun
  constructor
  · intro hall
    have hzero : inv.Guarded id (items.map fun item => (item, 0)) := by
      refine hall _ ⟨by rwa [List.length_map], fun e he => ?_⟩ ?_
      · obtain ⟨item, hmem, rfl⟩ := List.mem_map.mp he
        exact ⟨hitems item hmem, (by decide : InInt 0)⟩
      · rw [List.map_map]
        exact List.map_id _
    rcases lt_or_ge id 0 with hneg | h0
    · exact .inl hneg
    · refine .inr ⟨fun hnone => ?_, fun hid hshort item hmem => ?_⟩
      · exact not_guarded_nobody hnone h0 (by rwa [List.length_map]) hzero
      · by_contra hbad
        exact h.not_guarded_bad hid hitems hshort hmem hbad hzero
  · rintro hindexed count _ rfl
    exact h.guarded hint hindexed

/-- An item of a catalogue. -/
def wood : Item := { id := 0, name := [], ValueMarcet := 4, ValueHabour := 3 }

/-- The inventory over that one item after the first call of `addPlayer`. -/
def onePlayer : Inventar :=
  { knownItems := [wood], inventorys := [{ playerID := some 0, ownedItems := [(wood, 0)], hasHabour := [false] }] }

/-- The inventory after the second, when the first player has some amount of the item. -/
def firstHolds (amount : Int) : Inventar :=
  { knownItems := [wood]
    inventorys := [{ playerID := some 0, ownedItems := [(wood, amount)], hasHabour := [false] },
      { playerID := some 1, ownedItems := [(wood, 0)], hasHabour := [false] }] }

theorem run_twoPlayers : Run machine (initial [wood]) [.addPlayer, .addPlayer] (firstHolds 0) :=
  .cons (t := onePlayer) ⟨trivial, by decide +kernel⟩ (.single ⟨trivial, by decide +kernel⟩)

/-- With two players and one item, a single entry for that item is safe. -/
theorem guarded_single : (firstHolds 0).Guarded 0 [(0, -7)] := by
  have hitems : ∀ item ∈ [(0 : Int)], InInt item := by decide
  refine (guarded_iff run_twoPlayers (by decide) (by decide) hitems).mpr
    (.inr ⟨by decide, fun _ _ item hmem => ?_⟩) [(0, -7)] ⟨by decide, by decide⟩ rfl
  obtain rfl := List.mem_singleton.mp (List.mem_of_mem_take hmem)
  exact (by decide : (firstHolds 0).IsItem 0)

/-- Before the first player is added, an id passes that is no player's; and an index past the catalogue is followed. -/
theorem indexed_outside :
    (Run machine (initial [wood]) [] (initial [wood]) ∧ ¬(initial [wood]).IsPlayer 0 ∧
        (initial [wood]).hasPlayerItems 0 [(0, 1)] = .error .badAccess) ∧
      Run machine (initial [wood]) [.addPlayer, .addPlayer] (firstHolds 0) ∧
        (firstHolds 0).hasPlayerItems 0 [(1, 1)] = .error .badAccess :=
  ⟨⟨.nil, by decide, by decide +kernel⟩, run_twoPlayers, by decide +kernel⟩

/-! ## No player owes an item -/

/-- The calls with ids of players and indices of items, and amounts of either sign. -/
def Valid (inv : Inventar) : InventarCall → Prop
  | .addPlayer => True
  | .addItemtoPlayer id count => inv.IsPlayer id ∧ ∀ e ∈ count, inv.IsItem e.1
  | .removeItemFromPlayer id count => inv.IsPlayer id ∧ ∀ e ∈ count, inv.IsItem e.1

/-- What is added, where the list is not turned away, does not take more of an item than the player has. -/
def Solvent (inv : Inventar) : InventarCall → Prop
  | .addItemtoPlayer id count =>
    count.length < inv.inventorys.length → ∀ e ∈ count, 0 ≤ inv.held id e.1 + asked count e.1
  | _ => True

/-- The amounts of one player written anew: nobody owes exactly where that player does not. -/
theorem Created.nonNegative_withAmounts (h : inv.Created) (hnn : inv.NonNegative) (hid : inv.IsPlayer id) {f : Int → Int} :
    (inv.withAmounts id f).NonNegative ↔ ∀ item, inv.IsItem item → 0 ≤ f item := by
  constructor
  · intro hnn' item hitem
    rw [← h.held_withAmounts (f := f) hid hitem]
    exact held_nonneg hnn'
  · intro hf q hq e he
    obtain ⟨i, hi⟩ := List.mem_iff_getElem?.mp hq
    change (inv.inventorys.modify _ _)[i]? = some q at hi
    rw [List.getElem?_modify] at hi
    cases hp : inv.inventorys[i]? with
    | none => simp [hp] at hi
    | some p =>
      have hmem := List.mem_of_getElem? hp
      rw [hp] at hi
      by_cases heq : id.toNat = i
      · obtain rfl : p.withAmounts f = q := by simpa [heq] using hi
        obtain ⟨j, hj⟩ := List.mem_iff_getElem?.mp he
        rw [PlayerInventory.getElem?_withAmounts] at hj
        obtain ⟨e', he', rfl⟩ := Option.map_eq_some_iff.mp hj
        have hlt := (List.getElem?_eq_some_iff.mp he').1
        rw [h.length_ownedItems hmem] at hlt
        exact hf j ⟨by omega, by omega⟩
      · obtain rfl : p = q := by simpa [heq] using hi
        exact hnn p hmem e he

/-- One call: an inventory where nobody owes stays one exactly where the call is solvent. -/
theorem Created.nonNegative_step (h : inv.Created) (hnn : inv.NonNegative) {call : InventarCall} (hvalid : inv.Valid call)
    (hrun : call.run inv = .ok inv') : inv'.NonNegative ↔ inv.Solvent call := by
  cases call with
  | addPlayer => exact iff_of_true (hnn.addPlayer hrun) trivial
  | removeItemFromPlayer id count =>
    refine iff_of_true ?_ trivial
    obtain ⟨hid, hitems⟩ := hvalid
    change inv.removeItemFromPlayer id count = .ok inv' at hrun
    unfold removeItemFromPlayer at hrun
    split at hrun
    · cases hrun
      exact hnn
    · obtain ⟨rfl, _⟩ := h.removeItems hid hitems (foldlM_of_forEach hrun)
      exact (h.nonNegative_withAmounts hnn hid).mpr fun item _ => draw_nonneg (fun _ => held_nonneg hnn) item
  | addItemtoPlayer id count =>
    obtain ⟨hid, hitems⟩ := hvalid
    change inv.addItemtoPlayer id count = .ok inv' at hrun
    rcases lt_or_ge count.length inv.inventorys.length with hlen | hlen
    · obtain ⟨rfl, _⟩ := h.eq_of_addItemtoPlayer hid hitems hlen hrun
      rw [h.nonNegative_withAmounts hnn hid]
      constructor
      · exact fun hgive _ e he => hgive e.1 (hitems e he)
      · intro hsolvent item _
        by_cases hmem : ∃ e ∈ count, e.1 = item
        · obtain ⟨e, he, rfl⟩ := hmem
          exact hsolvent hlen e he
        · push Not at hmem
          rw [give, asked_eq_zero hmem, add_zero]
          exact held_nonneg hnn
    · have hturned : inv.refuses id count = true := by
        rw [h.refuses_eq hid]
        simpa using hlen
      obtain rfl : inv' = inv := by
        have hsame : inv.addItemtoPlayer id count = .ok inv := if_pos hturned
        rw [hsame] at hrun
        exact (Except.ok.inj hrun).symm
      exact iff_of_true hnn fun hshort => absurd hlen (not_le.mpr hshort)

/-- In a run of valid calls no player ever owes an item exactly if no call adds, in sum, more debt of an item than the player
has of it. -/
theorem nonNegative_iff {knownItems : List Item} {calls : List InventarCall}
    (hrun : Run (machine.when Valid) (initial knownItems) calls inv) :
    (∀ bs u, bs <+: calls → Run (machine.when Valid) (initial knownItems) bs u → u.NonNegative) ↔
      Run ((machine.when Valid).when Solvent) (initial knownItems) calls inv := by
  refine hrun.always_iff_under (created_initial knownItems) (fun _ hp => absurd hp List.not_mem_nil) ?_
  rintro t call u ht hnn ⟨⟨htyped, hvalid⟩, hstep⟩
  exact ⟨ht.run htyped hstep, ht.nonNegative_step hnn hvalid hstep⟩

/-- The first of two players is given a piece, and nobody owes anything. -/
theorem nonNegative_given : (firstHolds 1).NonNegative := by
  have hgiven : Run ((machine.when Valid).when Solvent) (initial [wood])
      [.addPlayer, .addPlayer, .addItemtoPlayer 0 [(0, 1)]] (firstHolds 1) := by
    refine .cons (t := onePlayer) ⟨⟨⟨trivial, trivial⟩, trivial⟩, by decide +kernel⟩
      (.cons (t := firstHolds 0) ⟨⟨⟨trivial, trivial⟩, trivial⟩, by decide +kernel⟩
        (.single ⟨⟨⟨⟨by decide, by decide, ?_⟩, by decide, by decide⟩, fun _ => by decide⟩, by decide +kernel⟩))
    decide
  exact (nonNegative_iff hgiven.of_when).mpr hgiven _ _ (List.prefix_refl _) hgiven.of_when

/-- A negative amount that is added leaves a debt. -/
theorem negative_amount_added :
    Run (machine.when Valid) (initial [wood]) [.addPlayer, .addPlayer, .addItemtoPlayer 0 [(0, -1)]] (firstHolds (-1)) ∧
      ¬(firstHolds (-1)).NonNegative := by
  refine ⟨.cons (t := onePlayer) ⟨⟨trivial, trivial⟩, by decide +kernel⟩
    (.cons (t := firstHolds 0) ⟨⟨trivial, trivial⟩, by decide +kernel⟩
      (.single ⟨⟨⟨by decide, by decide, ?_⟩, by decide, by decide⟩, by decide +kernel⟩)), ?_⟩
  · decide
  · unfold NonNegative
    decide

end Inventar

end SiedlerServer
