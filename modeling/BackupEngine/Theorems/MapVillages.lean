import BackupEngine.Lemmas.MapTables

/-!
# The villages of the map

The constructor of `village` marks what it makes as initialised, so `addVillage` never takes the branch that writes the
coordinates, and every slot the table grew over counts as a village. `getVillages` is right only while no tile was placed.
-/

namespace SiedlerServer

open Cpp

/-- A corner of a tile, not empty, that one of the calls placed. -/
def IsPlacedCorner (calls : List TileCall) (x y : Int) : Prop :=
  ∃ c ∈ calls, c.isEmpty = false ∧ ∃ i j : Int, (0 ≤ i ∧ i ≤ 2) ∧ (0 ≤ j ∧ j ≤ 1) ∧ x = 2 * c.x + i ∧ y = c.y + j

/-- `getVillages` returns one village for each corner of the tiles placed and no other, each with its coordinates and its
index. -/
structure VillagesExact (maxSizeX : Int) (calls : List TileCall) (m : Map) : Prop where
  once : (m.getVillages.map fun v => (v.x, v.y)).Nodup
  corners : ∀ x y, (∃ v ∈ m.getVillages, v.x = some x ∧ v.y = y) ↔ IsPlacedCorner calls x y
  own : ∀ v ∈ m.getVillages, ∃ x, v.x = some x ∧ v.index = v.y * (2 * maxSizeX + 2) + x

/-- While the villages are bare, `getVillages` names no corner. -/
theorem VillagesHold.no_corner {m : Map} (hm : VillagesHold m) {v : Village} (hv : v ∈ m.getVillages) : v.x = none :=
  (hm.bare v (List.mem_of_mem_filter hv)).2.1

/-- What a sequence of calls says of the villages: there are none while every tile placed was empty. -/
theorem run_villages_nil {growth : Nat → Nat} {maxSizeX maxSizeY : Int} {calls : List TileCall} {m : Map}
    (hsx : 1 ≤ maxSizeX) (hsy : 1 ≤ maxSizeY) (hc : ∀ c ∈ calls, c.InRange maxSizeX maxSizeY)
    (hempty : ∀ c ∈ calls, c.isEmpty = true) (h : (Map.setMaxSize maxSizeX maxSizeY).run growth calls = .ok m) :
    m.villages = [] := by
  have hrun := foldlM_prefix_invariant (fun p m => MapHolds maxSizeX maxSizeY (placedEdges p) m ∧ m.villages = []) calls
    (by
      rintro p c s t hp ⟨hs, hv⟩ ht
      have hcm : c ∈ calls := hp.subset (by simp)
      obtain ⟨hm, _, _, hkeep, _⟩ := setTile_spec hsx hsy hs (hc c hcm) ht
      exact ⟨placedEdges_concat p c ▸ hm, (hkeep (hempty c hcm)).trans hv⟩)
    ⟨placedEdges_nil ▸ mapHolds_setMaxSize maxSizeX maxSizeY, rfl⟩ h
  exact hrun.2

/-- For every map size and every sequence of calls below the first row: the villages are exact if and only if every tile
placed is empty and the index of its place fits. -/
theorem villagesExact_iff (growth : Nat → Nat) (maxSizeX maxSizeY : Int) (calls : List TileCall) (hsx : 1 ≤ maxSizeX)
    (hsy : 1 ≤ maxSizeY) (hc : ∀ c ∈ calls, c.InRange maxSizeX maxSizeY ∧ 1 ≤ c.y) :
    (∃ m, (Map.setMaxSize maxSizeX maxSizeY).run growth calls = .ok m ∧ VillagesExact maxSizeX calls m) ↔
      ∀ c ∈ calls, c.isEmpty = true ∧ c.x * maxSizeY + c.y + 1 < 2 ^ 31 := by
  have hrange : ∀ c ∈ calls, c.InRange maxSizeX maxSizeY := fun c hcm => (hc c hcm).1
  constructor
  · rintro ⟨m, hm, hex⟩ c hcm
    refine ⟨?_, (run_fits hsx hsy hrange hm c hcm).1.1⟩
    cases he : c.isEmpty with
    | true => rfl
    | false =>
      have hcorner : IsPlacedCorner calls (2 * c.x) c.y := ⟨c, hcm, he, 0, 0, by omega⟩
      obtain ⟨v, hv, hx, _⟩ := (hex.corners _ _).mpr hcorner
      rw [(run_mapHolds hsx hsy hrange hm).villages.no_corner hv] at hx
      cases hx
  · intro hempty
    have hreturns : ∃ m, (Map.setMaxSize maxSizeX maxSizeY).run growth calls = .ok m :=
      run_returns hsx hsy hrange (fun c hcm => by
        obtain ⟨he, hfit⟩ := hempty c hcm
        exact ⟨⟨hfit, by simp [he]⟩, by simp [he]⟩)
    obtain ⟨m, hm⟩ := hreturns
    have hnil := run_villages_nil hsx hsy hrange (fun c hcm => (hempty c hcm).1) hm
    have hnone : m.getVillages = [] := by simp [Map.getVillages, hnil]
    refine ⟨m, hm, by simp [hnone], fun x y => ?_, by simp [hnone]⟩
    constructor
    · rintro ⟨v, hv, _⟩
      rw [hnone] at hv
      cases hv
    · rintro ⟨c, hcm, he, _⟩
      rw [(hempty c hcm).1] at he
      cases he

/-- Two empty tiles leave no village. -/
theorem villagesExact_iff_empty_tiles :
    ∃ m, (Map.setMaxSize 5 5).run (· + 1) [⟨2, 2, [], -1, true⟩, ⟨2, 3, [], -1, true⟩] = .ok m ∧
      VillagesExact 5 [⟨2, 2, [], -1, true⟩, ⟨2, 3, [], -1, true⟩] m :=
  (villagesExact_iff (· + 1) 5 5 [⟨2, 2, [], -1, true⟩, ⟨2, 3, [], -1, true⟩] (by decide) (by decide)
    (by simp [TileCall.InRange])).mpr (by simp)

/-- The program's own two tiles have nine corners; every one of the 55 slots is returned as a village, all without an `x` and
with index -1. -/
theorem villages_two_tiles :
    (∀ c ∈ [(⟨2, 2, [0], 0, false⟩ : TileCall), ⟨2, 3, [0], 0, false⟩], c.InRange 5 5 ∧ 1 ≤ c.y) ∧
      ∃ m, (Map.setMaxSize 5 5).run (· + 1) [⟨2, 2, [0], 0, false⟩, ⟨2, 3, [0], 0, false⟩] = .ok m ∧
        m.getVillages.length = 55 ∧ (∀ v ∈ m.getVillages, v.x = none ∧ v.index = -1) ∧
        ¬VillagesExact 5 [⟨2, 2, [0], 0, false⟩, ⟨2, 3, [0], 0, false⟩] m := by
  have hrange : ∀ c ∈ [(⟨2, 2, [0], 0, false⟩ : TileCall), ⟨2, 3, [0], 0, false⟩], c.InRange 5 5 ∧ 1 ≤ c.y := by
    simp [TileCall.InRange]
  refine ⟨hrange, _, rfl, rfl, by decide, ?_⟩
  intro hex
  obtain ⟨v, hv, hx, _⟩ := (hex.corners 4 2).mpr ⟨⟨2, 2, [0], 0, false⟩, by simp, rfl, 0, 0, by decide⟩
  revert v
  decide

end SiedlerServer
