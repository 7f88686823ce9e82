import GrowthMap.Canon.Changes
import GrowthMap.Canon.MainlineRoutes
import Mathlib.Data.String.Basic

/- The order of the blocks of a node.

   The routes that edit blocks read them by `(order_index, created_at, id)`, whatever the
   stored indices, and write the places 0 to n-1. -/
namespace GrowthMap.Canon

open Relational Table Fallible

/-! The order -/

variable {b b' : ContentBlock} {bs : List ContentBlock}

section Order

variable {key : ContentBlock → Int} {a : ContentBlock}

theorem blockLE_iff : blockLE key a b = true ↔ a.orderIndex < b.orderIndex ∨ a.orderIndex = b.orderIndex ∧
    (key a < key b ∨ key a = key b ∧ a.id ≤ b.id) := by
  rw [blockLE, decide_eq_true_eq, le_iff_lt_or_eq]

theorem blockLE_trans (a b c : ContentBlock) (hab : blockLE key a b = true) (hbc : blockLE key b c = true) :
    blockLE key a c = true := by
  rw [blockLE_iff] at *
  rcases hab with hab | ⟨hab, hab' | ⟨hab', hid⟩⟩
  · left; omega
  · rcases hbc with hbc | ⟨hbc, hbc' | ⟨hbc', -⟩⟩
    · left; omega
    · right; omega
    · right; omega
  · rcases hbc with hbc | ⟨hbc, hbc' | ⟨hbc', hid'⟩⟩
    · left; omega
    · right; omega
    · exact .inr ⟨hab.trans hbc, .inr ⟨hab'.trans hbc', hid.trans hid'⟩⟩

theorem blockLE_total (a b : ContentBlock) : (blockLE key a b || blockLE key b a) = true := by
  rw [Bool.or_eq_true, blockLE_iff, blockLE_iff]
  rcases lt_trichotomy a.orderIndex b.orderIndex with h | h | h
  · exact .inl (.inl h)
  · rcases lt_trichotomy (key a) (key b) with h' | h' | h'
    · exact .inl (.inr ⟨h, .inl h'⟩)
    · rcases le_total a.id b.id with hid | hid
      · exact .inl (.inr ⟨h, .inr ⟨h', hid⟩⟩)
      · exact .inr (.inr ⟨h.symm, .inr ⟨h'.symm, hid⟩⟩)
    · exact .inr (.inr ⟨h.symm, .inl h'⟩)
  · exact .inr (.inl h)

theorem blockLE_antisymm (hab : blockLE key a b = true) (hba : blockLE key b a = true) : a.id = b.id := by
  rw [blockLE_iff] at *
  rcases hab with hab | ⟨hab, hab' | ⟨hab', hid⟩⟩
  · omega
  · omega
  · rcases hba with hba | ⟨hba, hba' | ⟨hba', hid'⟩⟩
    · omega
    · omega
    · exact le_antisymm hid hid'

end Order

def Dense (bs : List ContentBlock) : Prop := bs.map ContentBlock.orderIndex = (List.range bs.length).map Nat.cast

theorem Dense.pairwise {key : ContentBlock → Int} (h : Dense bs) :
    bs.Pairwise (fun a b => blockLE key a b = true) := by
  have hlt : (bs.map ContentBlock.orderIndex).Pairwise (· < ·) := by
    rw [h, List.pairwise_map]
    exact List.pairwise_lt_range.imp (fun hab => by exact_mod_cast hab)
  rw [List.pairwise_map] at hlt
  exact hlt.imp (fun hab => blockLE_iff.mpr (.inl hab))

theorem nodup_orderedBlocks (g : Graph) (nodeId : String) : ((orderedBlocks g nodeId).map ContentBlock.id).Nodup := by
  have hperm : ((orderedBlocks g nodeId).map ContentBlock.id).Perm
      ((g.blocks.rows.filter (fun b => decide (b.nodeId = nodeId))).map ContentBlock.id) := (List.mergeSort_perm _ _).map _
  rw [hperm.nodup_iff]
  exact g.blocks.distinct.sublist (List.filter_sublist.map _)

theorem orderedBlocks_of_dense {g : Graph} {nodeId : String}
    (hmem : ∀ b, b ∈ bs ↔ b ∈ g.blocks.rows ∧ b.nodeId = nodeId) (hnodup : bs.Nodup) (hdense : Dense bs) :
    orderedBlocks g nodeId = bs := by
  have hperm : (orderedBlocks g nodeId).Perm bs := by
    rw [List.perm_ext_iff_of_nodup (nodup_orderedBlocks g nodeId).of_map hnodup]
    intro b
    rw [mem_orderedBlocks, hmem]
  refine List.Perm.eq_of_pairwise ?_ (List.pairwise_mergeSort blockLE_trans blockLE_total _) hdense.pairwise hperm
  intro a b ha hb hab hba
  -- one id is one row
  have ha := get_of_mem (mem_orderedBlocks.mp ha).1
  have hb := get_of_mem ((hmem b).mp hb).1
  rw [blockLE_antisymm hab hba, hb] at ha
  exact (Option.some.inj ha).symm

/-! Rewriting the order -/

/-- The rows of a new order: each block as it was loaded and as it is now, at its place. -/
def placed (alwaysBump : Option String) (bs : List (ContentBlock × ContentBlock)) : List ContentBlock :=
  bs.zipIdx.map (fun b => reorder alwaysBump b.1.2 b.2)

theorem placed_ids (alwaysBump : Option String) (bs : List (ContentBlock × ContentBlock)) :
    (placed alwaysBump bs).map ContentBlock.id = bs.map (fun b => b.2.id) := by
  have hfst : bs.map (fun b => b.2.id) = bs.zipIdx.map (fun b => b.1.2.id) := by
    conv_lhs => rw [← List.zipIdx_map_fst 0 bs, List.map_map]
    rfl
  rw [placed, List.map_map, hfst]
  rfl

theorem placed_dense (alwaysBump : Option String) (bs : List (ContentBlock × ContentBlock)) : Dense (placed alwaysBump bs) := by
  have hsnd : (placed alwaysBump bs).map ContentBlock.orderIndex = (bs.zipIdx.map Prod.snd).map Nat.cast := by
    rw [placed, List.map_map, List.map_map]
    rfl
  have hlen : (placed alwaysBump bs).length = bs.length := by rw [placed, List.length_map, List.length_zipIdx]
  rw [Dense, hsnd, List.zipIdx_map_snd, hlen, List.range_eq_range']

/-- The columns of a block that an edit may write. -/
structure ContentBlock.SameRow (b b' : ContentBlock) : Prop where
  id : b'.id = b.id
  nodeId : b'.nodeId = b.nodeId
  createdBy : b'.createdBy = b.createdBy
  createdAt : b'.createdAt = b.createdAt

theorem ContentBlock.SameRow.patch (h : b.SameRow b') : b.patch b' b = b' := by
  obtain ⟨hid, hnode, hby, hat⟩ := h
  cases b
  cases b'
  simp_all [ContentBlock.patch]

theorem sameRow_reorder (h : b.SameRow b') (alwaysBump : Option String) (i : Nat) :
    b.SameRow (reorder alwaysBump b' i) := ⟨h.id, h.nodeId, h.createdBy, h.createdAt⟩

section Rows

variable {β : Type} {old new : β → ContentBlock} {g g' : Graph}

/-- Rows that are written over what was loaded are as they are now; the others stay. -/
theorem flushBlocks_get {bs : List β} (hloaded : ∀ b ∈ bs, g.blocks.get (old b).id = some (old b))
    (hsame : ∀ b ∈ bs, (old b).SameRow (new b)) (hnodup : (bs.map (fun b => (old b).id)).Nodup)
    (h : Fallible.each (fun b => flushBlock (old b) (new b)) bs g = .ok g') :
    (∀ b ∈ bs, g'.blocks.get (old b).id = some (new b)) ∧
      ∀ x, x ∉ bs.map (fun b => (old b).id) → g'.blocks.get x = g.blocks.get x := by
  induction bs generalizing g with
  | nil =>
    cases h
    exact ⟨nofun, fun _ _ => rfl⟩
  | cons b bs ih =>
    obtain ⟨g₁, hb, h⟩ := bind_ok h
    obtain ⟨hfresh, hnodup⟩ := List.nodup_cons.mp hnodup
    have hget : ∀ x, g₁.blocks.get x = if x = (old b).id then some (new b) else g.blocks.get x := by
      intro x
      rw [flushBlock_ok hb]
      show (g.blocks.modify (old b).id ((old b).patch (new b)) ContentBlock.patch_key).get x = _
      rw [get_modify]
      split
      · rename_i hx
        rw [hx, hloaded b List.mem_cons_self, Option.map_some, (hsame b List.mem_cons_self).patch]
      · rfl
    have hne : ∀ c ∈ bs, (old c).id ≠ (old b).id := by
      intro c hc hid
      exact hfresh (List.mem_map.mpr ⟨c, hc, hid⟩)
    obtain ⟨hwritten, hother⟩ := ih (fun c hc => by
      rw [hget, if_neg (hne c hc)]
      exact hloaded c (List.mem_cons_of_mem _ hc)) (fun c hc => hsame c (List.mem_cons_of_mem _ hc)) hnodup h
    refine ⟨?_, ?_⟩
    · intro c hc
      rcases List.mem_cons.mp hc with rfl | hc
      · rw [hother _ hfresh, hget, if_pos rfl]
      · exact hwritten c hc
    · intro x hx
      rw [List.map_cons, List.mem_cons, not_or] at hx
      rw [hother x hx.2, hget, if_neg hx.1]

/-- The new order of the blocks of a node, and how it was loaded. -/
structure Reordering (g : Graph) (nodeId : String) (bs : List (ContentBlock × ContentBlock)) : Prop where
  rows : ∀ b ∈ bs, b.1 ∈ g.blocks.rows ∧ b.1.nodeId = nodeId
  same : ∀ b ∈ bs, b.1.SameRow b.2
  places : ∀ b ∈ bs, b.2.orderIndex = b.1.orderIndex ∧ b.2.revision = b.1.revision
  nodup : (bs.map (fun b => b.2.id)).Nodup

variable {nodeId : String} {alwaysBump : Option String} {pairs : List (ContentBlock × ContentBlock)}

theorem rewriteBlockOrder_get (hr : Reordering g nodeId pairs) (h : rewriteBlockOrder alwaysBump pairs g = .ok g') :
    (∀ b ∈ placed alwaysBump pairs, g'.blocks.get b.id = some b) ∧
      ∀ x, x ∉ pairs.map (fun b => b.2.id) → g'.blocks.get x = g.blocks.get x := by
  have hid : ∀ b ∈ pairs.zipIdx, b.1.1.id = b.1.2.id := by
    intro b hb
    exact (hr.same b.1 (List.fst_mem_of_mem_zipIdx hb)).id.symm
  have hids : pairs.zipIdx.map (fun b => b.1.1.id) = pairs.map (fun b => b.2.id) := by
    conv_rhs => rw [← List.zipIdx_map_fst 0 pairs, List.map_map]
    exact List.map_congr_left hid
  obtain ⟨hwritten, hother⟩ := @flushBlocks_get _ (fun b : (ContentBlock × ContentBlock) × Nat => b.1.1)
    (fun b => reorder alwaysBump b.1.2 b.2) _ _ _
    (fun b hb => get_of_mem (hr.rows b.1 (List.fst_mem_of_mem_zipIdx hb)).1)
    (fun b hb => sameRow_reorder (hr.same b.1 (List.fst_mem_of_mem_zipIdx hb)) alwaysBump b.2) (hids ▸ hr.nodup) h
  refine ⟨?_, fun x hx => hother x (hids.symm ▸ hx)⟩
  intro b hb
  obtain ⟨c, hc, rfl⟩ := List.mem_map.mp hb
  have hget := hwritten c hc
  rwa [hid c hc] at hget

end Rows

/-! What an edit leaves -/

/-- The blocks of the node stand in the order, at the places 0 to n-1, and the revision of a block grew by one exactly
when its place changed or it was the updated one. -/
structure Rearranged (g g' : Graph) (nodeId : String) (ids : List String) (updated : Option String) : Prop where
  order : (orderedBlocks g' nodeId).map ContentBlock.id = ids
  dense : Dense (orderedBlocks g' nodeId)
  revision : ∀ b ∈ orderedBlocks g nodeId, b.id ∈ ids → ∃ b', g'.blocks.get b.id = some b' ∧
    b'.revision = b.revision + if b'.orderIndex ≠ b.orderIndex ∨ some b.id = updated then 1 else 0

def Graph.BlocksFromOne (g : Graph) : Prop := ∀ b ∈ g.blocks.rows, 1 ≤ b.revision

section Edits

variable {g g' : Graph} {nodeId : String} {alwaysBump : Option String} {pairs : List (ContentBlock × ContentBlock)}

theorem reorder_revision (hrev : 1 ≤ b.revision) (i : Nat) :
    (reorder alwaysBump b i).revision =
      b.revision + if (reorder alwaysBump b i).orderIndex ≠ b.orderIndex ∨ some b.id = alwaysBump then 1 else 0 := by
  have hbumped : bumped b.revision = b.revision + 1 := by
    rw [bumped, orOne, if_neg (by omega)]
  have hchanged : (reorder alwaysBump b i).revision =
      if (i : Int) ≠ b.orderIndex ∨ some b.id = alwaysBump then bumped b.revision else b.revision := by
    simp only [reorder, Bool.or_eq_true, decide_eq_true_eq, ne_comm]
  rw [hchanged, hbumped]
  show (if (i : Int) ≠ b.orderIndex ∨ some b.id = alwaysBump then b.revision + 1 else b.revision) = b.revision +
    if (i : Int) ≠ b.orderIndex ∨ some b.id = alwaysBump then 1 else 0
  split
  · rfl
  · exact (Int.add_zero _).symm

theorem orderedBlocks_placed (hnodup : (pairs.map (fun b => b.2.id)).Nodup) (hnode : ∀ b ∈ pairs, b.2.nodeId = nodeId)
    (hwritten : ∀ b ∈ placed alwaysBump pairs, g'.blocks.get b.id = some b)
    (hcover : ∀ b ∈ g'.blocks.rows, b.nodeId = nodeId → b.id ∈ pairs.map (fun b => b.2.id)) :
    orderedBlocks g' nodeId = placed alwaysBump pairs := by
  refine orderedBlocks_of_dense ?_ ?_ (placed_dense alwaysBump pairs)
  · intro b
    constructor
    · intro hb
      refine ⟨get_mem (hwritten b hb), ?_⟩
      obtain ⟨c, hc, rfl⟩ := List.mem_map.mp hb
      exact hnode c.1 (List.fst_mem_of_mem_zipIdx hc)
    · rintro ⟨hb, hn⟩
      have hmem := hcover b hb hn
      rw [← placed_ids alwaysBump] at hmem
      obtain ⟨c, hc, hid⟩ := List.mem_map.mp hmem
      have hget := hwritten c hc
      rw [hid, get_of_mem hb] at hget
      cases hget
      exact hc
  · exact List.Nodup.of_map ContentBlock.id (placed_ids alwaysBump pairs ▸ hnodup)

theorem rearranged_of_placed (hpos : g.BlocksFromOne) (hnodup : (pairs.map (fun b => b.2.id)).Nodup)
    (hnode : ∀ b ∈ pairs, b.2.nodeId = nodeId)
    (hrow : ∀ b ∈ pairs, ∀ row ∈ g.blocks.rows, row.id = b.2.id → row.orderIndex = b.2.orderIndex ∧ row.revision = b.2.revision)
    (hwritten : ∀ b ∈ placed alwaysBump pairs, g'.blocks.get b.id = some b)
    (hcover : ∀ b ∈ g'.blocks.rows, b.nodeId = nodeId → b.id ∈ pairs.map (fun b => b.2.id)) :
    Rearranged g g' nodeId (pairs.map (fun b => b.2.id)) alwaysBump := by
  have hordered := orderedBlocks_placed hnodup hnode hwritten hcover
  refine ⟨by rw [hordered, placed_ids], hordered.symm ▸ placed_dense alwaysBump pairs, ?_⟩
  intro b hb hid
  have hmem := (mem_orderedBlocks.mp hb).1
  rw [← placed_ids alwaysBump] at hid
  obtain ⟨c, hc, hid⟩ := List.mem_map.mp hid
  refine ⟨c, hid ▸ hwritten c hc, ?_⟩
  obtain ⟨⟨p, i⟩, hp, rfl⟩ := List.mem_map.mp hc
  obtain ⟨hindex, hrev⟩ := hrow p (List.fst_mem_of_mem_zipIdx hp) b hmem hid.symm
  have hb : b.id = p.2.id := hid.symm
  rw [hindex, hrev, hb]
  exact reorder_revision (hrev ▸ hpos b hmem) i

theorem placed_append (alwaysBump : Option String) (bs : List (ContentBlock × ContentBlock)) (b : ContentBlock × ContentBlock) :
    placed alwaysBump (bs ++ [b]) = placed alwaysBump bs ++ [reorder alwaysBump b.2 bs.length] := by
  rw [placed, List.zipIdx_append, List.map_append]
  simp [placed]

theorem reordering_self (hrows : ∀ b ∈ bs, b ∈ g.blocks.rows ∧ b.nodeId = nodeId)
    (hnodup : (bs.map ContentBlock.id).Nodup) : Reordering g nodeId (bs.map (fun b => (b, b))) where
  rows := by
    intro b hb
    obtain ⟨c, hc, rfl⟩ := List.mem_map.mp hb
    exact hrows c hc
  same := by
    intro b hb
    obtain ⟨c, -, rfl⟩ := List.mem_map.mp hb
    exact ⟨rfl, rfl, rfl, rfl⟩
  places := by
    intro b hb
    obtain ⟨c, -, rfl⟩ := List.mem_map.mp hb
    exact ⟨rfl, rfl⟩
  nodup := by
    rw [List.map_map]
    exact hnodup

theorem map_self_ids (bs : List ContentBlock) :
    (bs.map (fun b => (b, b))).map (fun b => b.2.id) = bs.map ContentBlock.id := by
  rw [List.map_map]
  rfl

theorem Reordering.row (hr : Reordering g nodeId pairs) : ∀ b ∈ pairs, ∀ row ∈ g.blocks.rows, row.id = b.2.id →
    row.orderIndex = b.2.orderIndex ∧ row.revision = b.2.revision := by
  intro b hb row hrow hid
  have hold := get_of_mem (hr.rows b hb).1
  rw [← (hr.same b hb).id, ← hid, get_of_mem hrow] at hold
  cases hold
  exact ⟨(hr.places b hb).1.symm, (hr.places b hb).2.symm⟩

theorem Reordering.node (hr : Reordering g nodeId pairs) : ∀ b ∈ pairs, b.2.nodeId = nodeId := by
  intro b hb
  exact (hr.same b hb).nodeId.trans (hr.rows b hb).2

variable {ids : List String}

theorem unplaced_row (hother : ∀ x, x ∉ ids → g'.blocks.get x = g.blocks.get x)
    (hb : b ∈ g'.blocks.rows) (hid : b.id ∉ ids) : b ∈ g.blocks.rows := by
  have hget := get_of_mem hb
  rw [hother b.id hid] at hget
  exact get_mem hget

theorem createBlock_rearranged {uuid : Nat → String} {now : Int} {d : BlockCreate} (hpos : g.BlocksFromOne)
    (h : createBlock (fun _ => g) uuid now nodeId d g = .ok g') :
    Rearranged g g' nodeId ((orderedBlocks g nodeId).map ContentBlock.id ++ [uuid 0]) none := by
  unfold createBlock at h
  cases hn : g.nodes.get nodeId with
  | none => simp [hn] at h
  | some =>
    simp only [hn] at h
    obtain ⟨g₁, hclaim, h⟩ := bind_ok h
    obtain ⟨_, -, h⟩ := bind_ok h
    obtain ⟨g₂, horder, h⟩ := bind_ok h
    obtain ⟨g₃, hblock, h⟩ := bind_ok h
    have hblocks₁ : g₁.blocks = g.blocks := (claim_rows hclaim).2.2.1
    have hordered : orderedBlocks g₁ nodeId = orderedBlocks g nodeId := by rw [orderedBlocks, hblocks₁, orderedBlocks]
    rw [hordered] at horder hblock
    have hr : Reordering g₁ nodeId ((orderedBlocks g nodeId).map (fun b => (b, b))) := by
      refine reordering_self ?_ (nodup_orderedBlocks g nodeId)
      intro b hb
      rw [← hordered] at hb
      exact mem_orderedBlocks.mp hb
    obtain ⟨hwritten, hother⟩ := rewriteBlockOrder_get hr horder
    obtain ⟨blocks, hins, rfl⟩ := insertBlock_ok hblock
    have hblocks' : g'.blocks = blocks := by rw [flushNode_ok h]
    let new : ContentBlock :=
      ⟨uuid 0, nodeId, d.blockType, d.content, (orderedBlocks g nodeId).length, "human", now, 1⟩
    have hfresh : g₂.blocks.get (uuid 0) = none := insert_fresh hins
    have hfresh₁ : uuid 0 ∉ (orderedBlocks g nodeId).map ContentBlock.id := by
      intro hmem
      rw [← map_self_ids, ← placed_ids none] at hmem
      obtain ⟨b, hb, hid⟩ := List.mem_map.mp hmem
      have hget := hwritten b hb
      rw [hid, hfresh] at hget
      cases hget
    have hnew : reorder none new (orderedBlocks g nodeId).length = new := by simp [reorder, new]
    have hplaced : placed none ((orderedBlocks g nodeId).map (fun b => (b, b)) ++ [(new, new)]) =
        placed none ((orderedBlocks g nodeId).map (fun b => (b, b))) ++ [new] := by
      rw [placed_append, List.length_map, hnew]
    have hids : ((orderedBlocks g nodeId).map (fun b => (b, b)) ++ [(new, new)]).map (fun b => b.2.id) =
        (orderedBlocks g nodeId).map ContentBlock.id ++ [uuid 0] := by
      rw [List.map_append, map_self_ids]
      rfl
    rw [← hids]
    refine rearranged_of_placed hpos ?_ ?_ ?_ ?_ ?_
    · rw [hids]
      exact List.nodup_append.mpr ⟨nodup_orderedBlocks g nodeId, List.nodup_singleton _, by
        intro a ha b hb hab
        rw [List.mem_singleton] at hb
        exact hfresh₁ (hb ▸ hab ▸ ha)⟩
    · intro b hb
      rcases List.mem_append.mp hb with hb | hb
      · exact hr.node b hb
      · rw [List.mem_singleton.mp hb]
    · intro b hb row hrow hid
      rcases List.mem_append.mp hb with hb | hb
      · exact hr.row b hb row (hblocks₁ ▸ hrow) hid
      · -- the new id was free
        rw [List.mem_singleton.mp hb] at hid
        have hget := hother (uuid 0) (by rwa [map_self_ids])
        rw [hfresh, hblocks₁, show uuid 0 = row.id from hid.symm, get_of_mem hrow] at hget
        cases hget
    · intro b hb
      rw [hblocks']
      rw [hplaced] at hb
      rcases List.mem_append.mp hb with hb | hb
      · exact get_insert_old hins (hwritten b hb)
      · rw [List.mem_singleton.mp hb]
        exact get_insert_self hins
    · intro b hb hnode
      rw [hids, List.mem_append]
      by_contra hno
      rw [not_or] at hno
      rw [hblocks', insert_rows hins, List.mem_append, List.mem_singleton] at hb
      rcases hb with hb | rfl
      · have hrow := unplaced_row hother hb (by rw [map_self_ids]; exact hno.1)
        rw [hblocks₁] at hrow
        exact hno.1 (List.mem_map_of_mem (mem_orderedBlocks.mpr ⟨hrow, hnode⟩))
      · exact hno.2 (List.mem_singleton_self _)

/-- The place of an updated block: its former one, or the requested one in the bounds. -/
def placeOf (requested : Option Int) (ids : List String) (x : String) : Nat :=
  match requested with
  | none => ids.idxOf x
  | some i => (max 0 (min i ((ids.length : Int) - 1))).toNat

variable {x blockId : String}

theorem length_others (hnodup : ids.Nodup) (hx : x ∈ ids) :
    (ids.filter (fun y => decide (y ≠ x))).length + 1 = ids.length := by
  have herase : ids.filter (fun y => decide (y ≠ x)) = ids.erase x := by
    rw [hnodup.erase_eq_filter]
    refine List.filter_congr (fun y _ => ?_)
    by_cases hy : y = x
    · simp [hy]
    · simp [hy]
  rw [herase, List.length_erase_of_mem hx]
  have := List.length_pos_of_mem hx
  omega

theorem held_self {block : ContentBlock} (hb : g.blocks.get block.id = some block) :
    held block (orderedBlocks g nodeId) = orderedBlocks g nodeId := by
  unfold held
  conv_rhs => rw [← List.map_id (orderedBlocks g nodeId)]
  refine List.map_congr_left (fun b hmem => ?_)
  split
  · rename_i hid
    have hrow := get_of_mem (mem_orderedBlocks.mp hmem).1
    rw [hid, hb] at hrow
    exact Option.some.inj hrow
  · rfl

theorem findIdx?_id {i : Nat} (h : bs.findIdx? (fun b => decide (b.id = x)) = some i) :
    (bs.map ContentBlock.id).idxOf x = i ∧ x ∈ bs.map ContentBlock.id := by
  induction bs generalizing i with
  | nil => simp at h
  | cons b bs ih =>
    rw [List.findIdx?_cons] at h
    rw [List.map_cons, List.idxOf_cons]
    by_cases hid : b.id = x
    · simp only [hid, decide_true, if_true, Option.some.injEq] at h
      simp [hid, h]
    · simp only [hid, decide_false, Bool.false_eq_true, if_false, Option.map_eq_some_iff] at h
      obtain ⟨j, hj, rfl⟩ := h
      obtain ⟨hidx, hmem⟩ := ih hj
      rw [beq_eq_false_iff_ne.mpr hid, hidx]
      exact ⟨rfl, List.mem_cons_of_mem _ hmem⟩

theorem updateBlock_rearranged {d : BlockUpdate} (hpos : g.BlocksFromOne)
    (h : updateBlock (fun _ => g) blockId d g = .ok g') : ∃ block, g.blocks.get blockId = some block ∧
      Rearranged g g' block.nodeId
        ((((orderedBlocks g block.nodeId).map ContentBlock.id).filter (fun x => decide (x ≠ blockId))).insertIdx
          (placeOf d.orderIndex ((orderedBlocks g block.nodeId).map ContentBlock.id) blockId) blockId) (some blockId) := by
  obtain ⟨⟨block, n⟩, hload, h⟩ := bind_ok h
  obtain ⟨hb, hn⟩ := loadBlock_ok hload
  obtain ⟨g₁, hclaim, h⟩ := bind_ok h
  obtain ⟨_, -, h⟩ := bind_ok h
  obtain ⟨_, -, h⟩ := bind_ok h
  refine ⟨block, hb, ?_⟩
  have hkey : block.id = blockId := get_key hb
  rw [← hkey] at hb ⊢
  have hid : n.id = block.nodeId := get_key hn
  rw [hid] at h
  have hblocks₁ : g₁.blocks = g.blocks := (claim_rows hclaim).2.2.1
  have hordered : orderedBlocks g₁ block.nodeId = orderedBlocks g block.nodeId := by rw [orderedBlocks, hblocks₁, orderedBlocks]
  rw [hordered, held_self hb] at h
  cases hidx : (orderedBlocks g block.nodeId).findIdx? (fun b => decide (b.id = block.id)) with
  | none => simp [hidx] at h
  | some originalIndex =>
    simp only [hidx] at h
    obtain ⟨-, h⟩ := guard_ok h
    obtain ⟨g₂, horder, h⟩ := bind_ok h
    obtain ⟨hfound, hmem⟩ := findIdx?_id hidx
    let others := (orderedBlocks g block.nodeId).filter (fun b => decide (b.id ≠ block.id))
    let changed : ContentBlock :=
      { block with blockType := (d.blockType.bind id).getD block.blockType, content := d.content.getD block.content }
    have hothers : others.map ContentBlock.id =
        ((orderedBlocks g block.nodeId).map ContentBlock.id).filter (fun x => decide (x ≠ block.id)) := by
      rw [List.filter_map]
      rfl
    have hlength : others.length + 1 = ((orderedBlocks g block.nodeId).map ContentBlock.id).length := by
      rw [← length_others (nodup_orderedBlocks g block.nodeId) hmem, ← hothers, List.length_map]
    have hplace : (match d.orderIndex with
        | none => originalIndex
        | some requested => (max 0 (min requested (others.map (fun b => (b, b))).length)).toNat) =
          placeOf d.orderIndex ((orderedBlocks g block.nodeId).map ContentBlock.id) block.id := by
      unfold placeOf
      cases d.orderIndex with
      | none => exact hfound.symm
      | some =>
        simp only [List.length_map] at hlength ⊢
        rw [← hlength]
        congr 3
        push_cast
        omega
    have hbound : placeOf d.orderIndex ((orderedBlocks g block.nodeId).map ContentBlock.id) block.id ≤ others.length := by
      unfold placeOf
      cases d.orderIndex with
      | none =>
        have := List.idxOf_lt_length_of_mem hmem
        dsimp only
        omega
      | some =>
        dsimp only
        omega
    have hinserted : rewriteBlockOrder (some block.id) ((others.map (fun b => (b, b))).insertIdx
        (placeOf d.orderIndex ((orderedBlocks g block.nodeId).map ContentBlock.id) block.id) (block, changed)) g₁ = .ok g₂ := by
      rw [← hplace]
      exact horder
    clear horder hplace
    generalize placeOf d.orderIndex ((orderedBlocks g block.nodeId).map ContentBlock.id) block.id = place at hinserted hbound ⊢
    let pairs := (others.map (fun b => (b, b))).insertIdx place (block, changed)
    have hids : pairs.map (fun b => b.2.id) = (others.map ContentBlock.id).insertIdx place block.id := by
      show (((others.map (fun b => (b, b))).insertIdx place (block, changed))).map (fun b => b.2.id) = _
      rw [List.map_insertIdx, map_self_ids]
    have hperm : (pairs.map (fun b => b.2.id)).Perm (block.id :: others.map ContentBlock.id) := by
      rw [hids]
      exact List.perm_insertIdx _ _ (by rwa [List.length_map])
    have hpairs : ∀ b ∈ pairs, b = (block, changed) ∨ ∃ c ∈ others, b = (c, c) := by
      intro b hmem
      rcases List.eq_or_mem_of_mem_insertIdx hmem with rfl | hmem
      · exact .inl rfl
      · obtain ⟨c, hc, rfl⟩ := List.mem_map.mp hmem
        exact .inr ⟨c, hc, rfl⟩
    have hr : Reordering g₁ block.nodeId pairs := by
      refine ⟨?_, ?_, ?_, ?_⟩
      · intro b hmem
        rw [hblocks₁]
        rcases hpairs b hmem with rfl | ⟨c, hc, rfl⟩
        · exact ⟨get_mem hb, rfl⟩
        · exact mem_orderedBlocks.mp (List.mem_of_mem_filter hc)
      · intro b hmem
        rcases hpairs b hmem with rfl | ⟨c, hc, rfl⟩
        · exact ⟨rfl, rfl, rfl, rfl⟩
        · exact ⟨rfl, rfl, rfl, rfl⟩
      · intro b hmem
        rcases hpairs b hmem with rfl | ⟨c, hc, rfl⟩
        · exact ⟨rfl, rfl⟩
        · exact ⟨rfl, rfl⟩
      · rw [hperm.nodup_iff, hothers]
        refine List.nodup_cons.mpr ⟨?_, (nodup_orderedBlocks g block.nodeId).filter _⟩
        intro hself
        have := (List.mem_filter.mp hself).2
        simp at this
    obtain ⟨hwritten, hother⟩ := rewriteBlockOrder_get hr hinserted
    have hblocks' : g'.blocks = g₂.blocks := by rw [flushNode_ok h]
    rw [← hothers, ← hids]
    refine rearranged_of_placed hpos hr.nodup hr.node ?_ ?_ ?_
    · rw [← hblocks₁]
      exact hr.row
    · rw [hblocks']
      exact hwritten
    · intro b hb hnode
      by_contra hno
      rw [hblocks'] at hb
      have hrow := unplaced_row hother hb hno
      rw [hblocks₁] at hrow
      refine hno (hperm.mem_iff.mpr ?_)
      by_cases hself : b.id = block.id
      · exact hself ▸ List.mem_cons_self
      · exact List.mem_cons_of_mem _ (List.mem_map_of_mem (List.mem_filter.mpr
          ⟨mem_orderedBlocks.mpr ⟨hrow, hnode⟩, by simpa using hself⟩))

theorem deleteBlock_rearranged {expectedProject expectedNode expected : Int} (hpos : g.BlocksFromOne)
    (h : deleteBlock (fun _ => g) blockId expectedProject expectedNode expected g = .ok g') :
    ∃ block, g.blocks.get blockId = some block ∧ g'.blocks.get blockId = none ∧ Rearranged g g' block.nodeId
      (((orderedBlocks g block.nodeId).map ContentBlock.id).filter (fun x => decide (x ≠ blockId))) none := by
  obtain ⟨⟨block, n⟩, hload, h⟩ := bind_ok h
  obtain ⟨hb, hn⟩ := loadBlock_ok hload
  obtain ⟨g₁, hclaim, h⟩ := bind_ok h
  obtain ⟨_, -, h⟩ := bind_ok h
  obtain ⟨_, -, h⟩ := bind_ok h
  obtain ⟨g₂, horder, h⟩ := bind_ok h
  obtain ⟨g₃, hflush, h⟩ := bind_ok h
  cases h
  have hkey : block.id = blockId := get_key hb
  rw [← hkey] at hb ⊢
  have hid : n.id = block.nodeId := get_key hn
  have hblocks₁ : g₁.blocks = g.blocks := (claim_rows hclaim).2.2.1
  have hordered : orderedBlocks g₁ block.nodeId = orderedBlocks g block.nodeId := by rw [orderedBlocks, hblocks₁, orderedBlocks]
  rw [hid, hordered] at horder
  let survivors := (orderedBlocks g block.nodeId).filter (fun b => decide (b.id ≠ block.id))
  have hsurvivors : (survivors.map (fun b => (b, b))).map (fun b => b.2.id) =
      ((orderedBlocks g block.nodeId).map ContentBlock.id).filter (fun x => decide (x ≠ block.id)) := by
    rw [map_self_ids, List.filter_map]
    rfl
  have hr : Reordering g₁ block.nodeId (survivors.map (fun b => (b, b))) := by
    refine reordering_self ?_ ?_
    · intro b hb
      rw [hblocks₁]
      exact mem_orderedBlocks.mp (List.mem_of_mem_filter hb)
    · rw [← map_self_ids, hsurvivors]
      exact (nodup_orderedBlocks g block.nodeId).filter _
  obtain ⟨hwritten, hother⟩ := rewriteBlockOrder_get hr horder
  have hblocks₃ : g₃.blocks = g₂.blocks := by rw [flushNode_ok hflush]
  have hkept : ∀ x, (g₃.blocks.keep (fun b => decide (b.id ≠ block.id))).get x =
      (g₂.blocks.get x).filter (fun b => decide (b.id ≠ block.id)) := by
    intro x
    rw [hblocks₃, get_keep_filter]
  refine ⟨block, hb, ?_, ?_⟩
  · show (g₃.blocks.keep (fun b => decide (b.id ≠ block.id))).get block.id = none
    rw [hkept]
    cases hget : g₂.blocks.get block.id with
    | none => rfl
    | some => simp [get_key hget]
  · rw [← hsurvivors]
    refine rearranged_of_placed hpos hr.nodup hr.node ?_ ?_ ?_
    · rw [← hblocks₁]
      exact hr.row
    · intro b hmem
      show (g₃.blocks.keep (fun b => decide (b.id ≠ block.id))).get b.id = some b
      have hids : b.id ∈ (placed none (survivors.map (fun b => (b, b)))).map ContentBlock.id := List.mem_map_of_mem hmem
      rw [placed_ids, hsurvivors] at hids
      rw [hkept, hwritten b hmem, Option.filter_some, if_pos (List.mem_filter.mp hids).2]
    · intro b hmem hnode
      by_contra hno
      obtain ⟨hmem, hne⟩ := List.mem_filter.mp hmem
      rw [hblocks₃] at hmem
      have hrow := unplaced_row hother hmem hno
      rw [hblocks₁] at hrow
      rw [hsurvivors] at hno
      exact hno (List.mem_filter.mpr ⟨List.mem_map_of_mem (mem_orderedBlocks.mpr ⟨hrow, hnode⟩), hne⟩)

end Edits

theorem reached_fromOne (es : List Event) : (Runs.run Graph.after Graph.empty es).BlocksFromOne := by
  intro b hb
  rcases (reached_tidy es).grown b hb with hrev | ⟨b₀, hb₀, -⟩
  · exact hrev
  · cases hb₀

/-- After every edit the blocks of the node stand at the places 0 to n-1, whatever their indices were: the others in
their order, a created one last, an updated one where it was or as near as can be to where it is wanted. -/
theorem blocks_dense :
    (∀ es, (Runs.run Graph.after Graph.empty es).BlocksFromOne) ∧ ∀ g : Graph, g.BlocksFromOne →
      (∀ uuid now nodeId d g', createBlock (fun _ => g) uuid now nodeId d g = .ok g' →
        Rearranged g g' nodeId ((orderedBlocks g nodeId).map ContentBlock.id ++ [uuid 0]) none) ∧
      (∀ blockId d g', updateBlock (fun _ => g) blockId d g = .ok g' → ∃ block, g.blocks.get blockId = some block ∧
        Rearranged g g' block.nodeId
          ((((orderedBlocks g block.nodeId).map ContentBlock.id).filter (fun x => decide (x ≠ blockId))).insertIdx
            (placeOf d.orderIndex ((orderedBlocks g block.nodeId).map ContentBlock.id) blockId) blockId) (some blockId)) ∧
      ∀ blockId expectedProject expectedNode expected g',
        deleteBlock (fun _ => g) blockId expectedProject expectedNode expected g = .ok g' →
        ∃ block, g.blocks.get blockId = some block ∧ g'.blocks.get blockId = none ∧ Rearranged g g' block.nodeId
          (((orderedBlocks g block.nodeId).map ContentBlock.id).filter (fun x => decide (x ≠ blockId))) none := by
  refine ⟨reached_fromOne, fun g hpos => ⟨?_, ?_, ?_⟩⟩
  · intro uuid now nodeId d g' h
    exact createBlock_rearranged hpos h
  · intro blockId d g' h
    exact updateBlock_rearranged hpos h
  · intro blockId expectedProject expectedNode expected g' h
    exact deleteBlock_rearranged hpos h

end GrowthMap.Canon
