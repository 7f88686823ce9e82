import GrowthMap.Canon.Mainline
import GrowthMap.Canon.Containment

/- No request makes a second mainline child.

   One lemma for each route: from a graph in order its writes are never refused by the schema
   for a second mainline child, and end in a graph in order. -/
namespace GrowthMap.Canon

open Relational Fallible Table

section Routes

variable {start g : Graph} {uuid : Nat → String} {now : Int}

/-! Nodes and edges -/

variable {see : Nat → Graph} {b : ContentBlock} {p projectId actor : String} {flushed : Bool} {s : Session}

theorem loadParent_avoids (projectId : String) (d : NodeCreate) :
    Avoids Clash (loadParent see projectId d) := by
  unfold loadParent
  split
  · exact avoids_ok _ _
  · split
    · exact avoids_error nofun
    · exact avoids_guard nofun (fun _ => avoids_guard nofun (fun _ => avoids_guard nofun (fun _ => avoids_ok _ _)))

theorem createNode_orderly (h : Tidy start g) (projectId : String) (d : NodeCreate) :
    Orderly start (createNode (fun _ => g) uuid projectId d g) := by
  refine meets_guard nofun (fun _ => (loadParent_avoids projectId d).meets (fun parent _ => ?_))
  refine (claim_orderly h _ _).bind (fun g₁ _ h₁ => ?_)
  refine (checkActiveBranch_avoids harmless_clash _ _).meets (fun _ _ => ?_)
  refine (insertNode_orderly h₁ _).bind (fun g₂ _ h₂ => ?_)
  cases parent with
  | none => exact meets_ok h₂
  | some => exact (insertChild_orderly h₂ _ _ _ _).bind (fun g₃ _ h₃ => flushNode_orderly h₃ _ _)

theorem updateNode_orderly (h : Tidy start g) (nodeId : String) (d : NodeUpdate) :
    Orderly start (updateNode (fun _ => g) nodeId d g) := by
  unfold updateNode
  split
  · exact meets_error nofun
  · refine (claim_orderly h _ _).bind (fun g₁ _ h₁ => ?_)
    exact (check_avoids _ _ _ _).meets (fun _ _ => flushNode_orderly h₁ _ _)

theorem deleteNode_orderly (h : Tidy start g) (nodeId : String) (expectedProject expected : Int) :
    Orderly start (deleteNode (fun _ => g) nodeId expectedProject expected g) := by
  unfold deleteNode
  split
  · exact meets_error nofun
  · refine meets_guard nofun (fun _ => (check_avoids _ _ _ _).meets (fun _ _ => ?_))
    refine (validateClosure_avoids harmless_clash _).meets (fun _ _ => ?_)
    refine (claim_orderly h _ _).bind (fun g₁ _ h₁ => ?_)
    exact (validateClosure_avoids harmless_clash _).meets (fun _ _ => meets_ok (deleteNodes_tidy (deleteEdges_tidy h₁ _) _))

theorem createEdge_orderly (h : Tidy start g) (d : EdgeCreate) : Orderly start (createEdge (fun _ => g) uuid d g) := by
  unfold createEdge
  split
  · refine meets_guard nofun (fun _ => meets_guard nofun (fun _ => meets_guard nofun (fun _ => ?_)))
    refine (oneOrNone_avoids harmless_clash _).meets (fun duplicate _ => ?_)
    refine meets_guard nofun (fun _ => (claim_orderly h _ _).bind (fun g₁ _ h₁ => ?_))
    dsimp only
    split
    · -- the mainline edge finds no other one
      refine (demote_orderly h₁ d.fromNodeId none).bind (fun g₂ _ hg₂ => insertEdge_orderly hg₂.1 ?_)
      rintro x hx p hlead ⟨-, -, rfl⟩
      cases hg₂.2.1 x hx hlead
    · rename_i hneither
      refine insertEdge_orderly h₁ ?_
      rintro x hx p hlead ⟨hc, hm, -⟩
      exact hneither ⟨hm, of_decide_eq_true hc⟩
  · exact meets_error nofun

theorem updateEdge_orderly (h : Tidy start g) (edgeId : String) (d : EdgeUpdate) :
    Orderly start (updateEdge (fun _ => g) edgeId d g) := by
  unfold updateEdge
  split
  · exact meets_error nofun
  · rename_i edge hedge
    refine meets_guard nofun (fun hrelation => (claim_orderly h _ _).bind (fun g₁ hclaim h₁ => ?_))
    refine (check_avoids _ _ _ _).meets (fun _ _ => ?_)
    refine meets_guard nofun (fun _ => meets_guard nofun (fun _ => meets_guard nofun (fun _ => ?_)))
    refine flushEdge_orderly h₁ ?_
    rintro row hrow p ⟨hc, -, -⟩
    rw [(claim_rows hclaim).2.1, get_key hedge, hedge] at hrow
    cases hrow
    exact absurd hc hrelation

theorem promote_orderly (h : Tidy start g) {edge : Edge} (hedge : g.edges.get edge.id = some edge)
    (expectedProject expected : Int) : Orderly start (promote edge expectedProject expected g) := by
  refine (claim_orderly h _ _).bind (fun g₁ hclaim h₁ => (check_avoids _ _ _ _).meets (fun _ _ => ?_))
  refine (demote_orderly h₁ edge.fromNodeId (some edge.id)).bind (fun g₂ _ hg₂ => ?_)
  obtain ⟨h₂, hlead, hends⟩ := hg₂
  refine flushEdge_orderly h₂ ?_
  rintro row hrow p ⟨-, -, rfl⟩ x hx hx'
  -- the row still leaves the parent it left
  have hfrom : row.fromNodeId = edge.fromNodeId := by
    obtain ⟨y, hy, hid, hfrom⟩ := hends row (get_mem hrow)
    have hget := get_of_mem hy
    rw [hid, get_key hrow, (claim_rows hclaim).2.1, hedge] at hget
    cases hget
    exact hfrom.symm
  have hleads : x.LeadsFrom edge.fromNodeId := by
    rw [← hfrom]
    exact hx'
  exact Option.some.inj (hlead x hx hleads)

theorem promoteMainline_orderly (h : Tidy start g) (edgeId : String) (expectedProject expected : Int) :
    Orderly start (promoteMainline (fun _ => g) edgeId expectedProject expected g) := by
  unfold promoteMainline
  split
  · exact meets_error nofun
  · rename_i edge hedge
    have hedge : g.edges.get edge.id = some edge := by
      rw [get_key hedge]
      exact hedge
    exact meets_guard nofun (fun _ => promote_orderly h hedge _ _)

theorem promoteChildMainline_orderly (h : Tidy start g) (parentId childId : String) (expectedProject expected : Int) :
    Orderly start (promoteChildMainline (fun _ => g) parentId childId expectedProject expected g) := by
  refine (oneOrNone_avoids harmless_clash _).meets (fun found hfound => ?_)
  cases found with
  | none => exact meets_error nofun
  | some edge =>
    have hmem : edge ∈ (g.childEdges parentId).filter (fun e => decide (e.toNodeId = childId)) := by
      rw [oneOrNone_ok hfound]
      exact List.mem_cons_self
    exact promote_orderly h (get_of_mem (List.mem_of_mem_filter (List.mem_of_mem_filter hmem))) _ _

theorem deleteEdge_orderly (h : Tidy start g) (edgeId : String) (expectedProject expected : Int) :
    Orderly start (deleteEdge (fun _ => g) edgeId expectedProject expected g) := by
  unfold deleteEdge
  split
  · exact meets_error nofun
  · refine meets_guard nofun (fun _ => (claim_orderly h _ _).bind (fun g₁ _ h₁ => ?_))
    exact (check_avoids _ _ _ _).meets (fun _ _ => meets_ok (deleteEdges_tidy h₁ _))

/-! Moves -/

theorem checkMove_avoids (l : Loaded) (d : NodeMove) : Avoids Clash (checkMove l d) := by
  refine (check_avoids _ _ _ _).bind (fun _ _ => (check_avoids _ _ _ _).bind (fun _ _ => ?_))
  split
  · exact avoids_ok _ _
  · split
    · exact avoids_error nofun
    · exact check_avoids _ _ _ _

theorem touchAll_orderly (h : Tidy start g) (ns : List Node) : Orderly start (touchAll ns g) :=
  meets_each (fun _ _ _ hs => flushNode_orderly hs _ _) h

theorem replaceParent_orderly (h : Tidy start g) (l : Loaded) : Orderly start (replaceParent uuid l g) :=
  (insertChild_orderly (deleteEdges_tidy h _) _ _ _ _).bind (fun _ _ h' => touchAll_orderly h' _)

theorem moveNode_orderly (h : Tidy start g) (nodeId : String) (d : NodeMove) :
    Orderly start (moveNode (fun _ => g) uuid nodeId d g) := by
  refine Avoids.meets (loadMove_avoids harmless_clash ?_ ?_ ?_ nodeId d) (fun l _ => ?_)
  · exact nofun
  · exact nofun
  · exact nofun
  · refine (checkMove_avoids l d).meets (fun _ _ => (claim_orderly h _ _).bind (fun g₁ _ h₁ => ?_))
    exact meets_guard nofun (fun _ => replaceParent_orderly h₁ l)

theorem reparentNode_orderly (h : Tidy start g) (nodeId : String) (d : NodeMove) :
    Orderly start (reparentNode (fun _ => g) uuid nodeId d g) := by
  refine Avoids.meets (loadMove_avoids harmless_clash ?_ ?_ ?_ nodeId d) (fun l _ => ?_)
  · exact nofun
  · exact nofun
  · exact nofun
  · refine (checkMove_avoids l d).meets (fun _ _ => (claim_orderly h _ _).bind (fun g₁ _ h₁ => ?_))
    exact meets_guard nofun (fun _ => replaceParent_orderly h₁ l)

/-! Blocks -/

theorem le_bumped (r : Int) : r ≤ bumped r := by
  unfold bumped orOne
  split
  · omega
  · omega

theorem Aged.of_le {b' : ContentBlock} (h : Aged start b) (hle : b.revision ≤ b'.revision) : Aged start b' := by
  rcases h with h | ⟨b₀, hb₀, h⟩
  · exact .inl (h.trans hle)
  · exact .inr ⟨b₀, hb₀, h.trans hle⟩

theorem reorder_aged (h : Aged start b) (alwaysBump : Option String) (i : Nat) :
    Aged start (reorder alwaysBump b i) := by
  refine h.of_le ?_
  unfold reorder
  dsimp only
  split
  · exact le_bumped b.revision
  · exact le_refl b.revision

theorem rewriteBlockOrder_orderly (h : Tidy start g) {alwaysBump : Option String} {bs : List (ContentBlock × ContentBlock)}
    (hbs : ∀ b ∈ bs, Aged start b.2) : Orderly start (rewriteBlockOrder alwaysBump bs g) := by
  refine meets_each (fun b hb s hs => ?_) h
  exact flushBlock_orderly hs (reorder_aged (hbs b.1 (List.fst_mem_of_mem_zipIdx hb)) _ _)

theorem Tidy.ordered (h : Tidy start g) {nodeId : String} (hb : b ∈ orderedBlocks g nodeId) : Aged start b :=
  h.grown b (mem_orderedBlocks.mp hb).1

theorem createBlock_orderly (h : Tidy start g) (nodeId : String) (d : BlockCreate) :
    Orderly start (createBlock (fun _ => g) uuid now nodeId d g) := by
  unfold createBlock
  split
  · exact meets_error nofun
  · refine (claim_orderly h _ _).bind (fun g₁ _ h₁ => (check_avoids _ _ _ _).meets (fun _ _ => ?_))
    refine Meets.bind (rewriteBlockOrder_orderly h₁ ?_) (fun g₂ _ h₂ => ?_)
    · intro b hb
      obtain ⟨c, hc, rfl⟩ := List.mem_map.mp hb
      exact h₁.ordered hc
    · exact (insertBlock_orderly h₂ (le_refl 1)).bind (fun g₃ _ h₃ => flushNode_orderly h₃ _ _)

theorem loadBlock_avoids (blockId : String) : Avoids Clash (loadBlock see blockId) := by
  unfold loadBlock
  split
  · exact avoids_error nofun
  · split
    · exact avoids_error nofun
    · exact avoids_ok _ _

theorem updateBlock_orderly (h : Tidy start g) (blockId : String) (d : BlockUpdate) :
    Orderly start (updateBlock (fun _ => g) blockId d g) := by
  refine (loadBlock_avoids blockId).meets (fun loaded hload => ?_)
  obtain ⟨block, node⟩ := loaded
  have hblock : Aged start block := h.grown block (get_mem (loadBlock_ok hload).1)
  refine (claim_orderly h _ _).bind (fun g₁ _ h₁ => ?_)
  refine (check_avoids _ _ _ _).meets (fun _ _ => (check_avoids _ _ _ _).meets (fun _ _ => ?_))
  dsimp only
  split
  · exact meets_error nofun
  · refine meets_guard nofun (fun _ => Meets.bind (rewriteBlockOrder_orderly h₁ ?_) (fun g₂ _ h₂ => flushNode_orderly h₂ _ _))
    intro b hb
    rcases List.eq_or_mem_of_mem_insertIdx hb with rfl | hb
    · exact hblock.of_le (le_refl _)
    · obtain ⟨c, hc, rfl⟩ := List.mem_map.mp hb
      obtain ⟨x, hx, rfl⟩ := List.mem_map.mp (List.mem_of_mem_filter hc)
      split
      · exact hblock
      · exact h₁.ordered hx

theorem deleteBlock_orderly (h : Tidy start g) (blockId : String) (expectedProject expectedNode expected : Int) :
    Orderly start (deleteBlock (fun _ => g) blockId expectedProject expectedNode expected g) := by
  refine (loadBlock_avoids blockId).meets (fun loaded _ => ?_)
  obtain ⟨block, node⟩ := loaded
  refine (claim_orderly h _ _).bind (fun g₁ _ h₁ => ?_)
  refine (check_avoids _ _ _ _).meets (fun _ _ => (check_avoids _ _ _ _).meets (fun _ _ => ?_))
  refine Meets.bind (rewriteBlockOrder_orderly h₁ ?_) (fun g₂ _ h₂ => ?_)
  · intro b hb
    obtain ⟨c, hc, rfl⟩ := List.mem_map.mp hb
    exact h₁.ordered (List.mem_of_mem_filter hc)
  · refine (flushNode_orderly h₂ _ _).bind (fun g₃ _ h₃ => meets_ok ?_)
    exact h₃.of_fewer (fun e he => ⟨he, h₃.rooted e he⟩) (fun b hb => List.mem_of_mem_filter hb)

/-! Projects -/

theorem createProject_orderly (h : Tidy start g) (seats : Option Nat) (d : ProjectCreate) :
    Orderly start (createProject (fun _ => g) uuid seats d g) := by
  refine (requireActiveProjectSeat_avoids harmless_clash _ _).meets (fun _ _ => ?_)
  refine (insertProject_orderly h _).bind (fun g₁ _ h₁ => ?_)
  exact (insertNode_orderly h₁ _).bind (fun g₂ _ h₂ => flushProject_orderly h₂ _ _)

theorem updateProject_orderly (h : Tidy start g) (seats : Option Nat) (projectId : String) (expectedProject : Int)
    (changes : List (ProjectField × Value)) :
    Orderly start (updateProject (fun _ => g) seats projectId expectedProject changes g) := by
  unfold updateProject
  split
  · exact meets_error nofun
  · refine (claim_orderly h _ _).bind (fun g₁ _ h₁ => ?_)
    dsimp only
    split
    · exact (requireActiveProjectSeat_avoids harmless_clash _ _).meets (fun _ _ => flushProject_orderly h₁ _ _)
    · exact flushProject_orderly h₁ _ _

theorem deleteProject_orderly (h : Tidy start g) (projectId : String) (expectedProject : Int) :
    Orderly start (deleteProject (fun _ => g) projectId expectedProject g) := by
  unfold deleteProject
  split
  · exact meets_error nofun
  · exact (claim_orderly h _ _).bind (fun g₁ _ h₁ => meets_ok (deleteProjectRow_tidy h₁ _))

/-! Rows in bulk -/

def Apart (es : List Edge) : Prop := es.Pairwise (fun e e' => ∀ x, e.LeadsFrom x → ¬ e'.LeadsFrom x)

theorem insertEdges_orderly (h : Tidy start g) {es : List Edge} (hapart : Apart es)
    (hfree : ∀ e ∈ es, ∀ x ∈ g.edges.rows, x.fromNodeId ≠ e.fromNodeId) : Orderly start (each insertEdge es g) := by
  suffices hsuffices : ∀ (es : List Edge) (s : Graph), Tidy start s → Apart es →
      (∀ e ∈ es, ∀ x ∈ s.edges.rows, ∀ p, x.LeadsFrom p → ¬ e.LeadsFrom p) → Orderly start (each insertEdge es s) by
    refine hsuffices es g h hapart ?_
    rintro e he x hx p ⟨-, -, hfrom⟩ ⟨-, -, hfrom'⟩
    exact hfree e he x hx (hfrom.trans hfrom'.symm)
  intro es
  induction es with
  | nil => exact fun s hs _ _ => meets_ok hs
  | cons e es ih =>
    intro s hs hapart hfree
    obtain ⟨hfirst, hapart⟩ := List.pairwise_cons.mp hapart
    refine (insertEdge_orderly hs (hfree e List.mem_cons_self)).bind (fun s₁ hins hs₁ => ih s₁ hs₁ hapart ?_)
    obtain ⟨-, edges, hrows, rfl⟩ := insertEdge_ok hins
    intro c hc x hx p hlead
    rw [insert_rows hrows, List.mem_append, List.mem_singleton] at hx
    rcases hx with hx | rfl
    · exact hfree c (List.mem_cons_of_mem _ hc) x hx p hlead
    · exact hfirst c hc p hlead

theorem insertNodes_orderly (h : Tidy start g) (ns : List Node) : Orderly start (each insertNode ns g) :=
  meets_each (fun _ _ _ hs => insertNode_orderly hs _) h

theorem insertBlocks_orderly (h : Tidy start g) {bs : List ContentBlock} (hbs : ∀ b ∈ bs, b.revision = 1) :
    Orderly start (each insertBlock bs g) :=
  meets_each (fun b hb _ hs => insertBlock_orderly hs (hbs b hb).ge) h

theorem Tidy.from_ne (h : Tidy start g) {x : String} (hx : g.nodes.get x = none) : ∀ e ∈ g.edges.rows, e.fromNodeId ≠ x := by
  rintro e he rfl
  have hsome := h.rooted e he
  rw [hx] at hsome
  cases hsome

/-! Import -/

theorem importEdges_apart {idMap : String → Option String} (es : List (ImportEdge × Nat)) (mainlines : List String) :
    Apart (importEdges p idMap uuid es mainlines) ∧
      ∀ e ∈ importEdges p idMap uuid es mainlines, ∀ x, e.LeadsFrom x → x ∉ mainlines := by
  induction es generalizing mainlines with
  | nil => exact ⟨.nil, nofun⟩
  | cons e es ih =>
    unfold importEdges
    cases ha : idMap e.1.fromNodeId with
    | none => exact ih mainlines
    | some a =>
      cases hb : idMap e.1.toNodeId with
      | none => exact ih mainlines
      | some =>
        dsimp only
        set flag := e.1.isMainline && decide (e.1.relationType = "child_of") && decide (a ∉ mainlines) with hflag
        obtain ⟨hapart, hfree⟩ := ih (if flag then a :: mainlines else mainlines)
        refine ⟨List.pairwise_cons.mpr ⟨?_, hapart⟩, ?_⟩
        · rintro e' he' x ⟨-, hm, rfl⟩ hlead
          have hnot := hfree e' he' a hlead
          rw [if_pos hm] at hnot
          exact hnot List.mem_cons_self
        · intro e' he' x hlead
          rcases List.mem_cons.mp he' with rfl | he'
          · obtain ⟨-, hm, rfl⟩ := hlead
            have hm : flag = true := hm
            rw [hflag, Bool.and_eq_true] at hm
            exact of_decide_eq_true hm.2
          · have hnot := hfree e' he' x hlead
            split at hnot
            · exact fun hmem => hnot (List.mem_cons_of_mem _ hmem)
            · exact hnot

theorem importCommitted_orderly (h : Tidy start g) (f : ImportFile) : Orderly start (importCommitted uuid now f g) := by
  refine (insertProject_orderly h _).bind (fun g₁ hproject h₁ => ?_)
  refine (insertNodes_orderly h₁ _).bind (fun g₂ hnodes h₂ => ?_)
  have hroot : Orderly start (f.setRoot uuid g₂) := by
    unfold ImportFile.setRoot
    split
    · exact meets_ok h₂
    · exact flushProject_orderly h₂ _ _
  refine hroot.bind (fun g₃ hset h₃ => ?_)
  refine Meets.bind (insertEdges_orderly h₃ (importEdges_apart _ _).1 ?_) (fun g₄ _ h₄ => ?_)
  · -- the new edges leave new nodes
    intro e he x hx
    obtain ⟨-, ⟨a, ha⟩, -⟩ := importEdges_ends he
    obtain ⟨n, hn, -, hid⟩ := ImportFile.idMap_ok ha
    obtain ⟨nodes, hrows, rfl⟩ := insertNodes_ok hnodes
    have hfree := (added_of_rows hrows).fresh _ (List.mem_map_of_mem hn)
    have hedges : g₃.edges = g₁.edges := by
      unfold ImportFile.setRoot at hset
      split at hset
      · cases hset
        rfl
      · rw [flushProject_ok hset]
    rw [hedges] at hx
    rw [hid]
    exact h₁.from_ne hfree x hx
  · refine insertBlocks_orderly h₄ ?_
    intro b hb
    obtain ⟨x, -, hb⟩ := List.mem_filterMap.mp hb
    obtain ⟨c, -, hb⟩ := Option.bind_eq_some_iff.mp hb
    cases hb
    rfl

theorem importProject_orderly (h : Tidy start g) (seats : Option Nat) (f : ImportFile) :
    Orderly start (importProjectJson (fun _ => g) uuid seats now f g) := by
  unfold importProjectJson
  split
  · exact importCommitted_orderly h f
  · exact (requireActiveProjectSeat_avoids harmless_clash _ _).meets (fun _ _ => importCommitted_orderly h f)

/-! Branches -/

/-- Copies of distinct mainline edges leave distinct copies. -/
theorem copiedEdges_apart (h : Tidy start g) {subtree : List String}
    (hinj : ∀ a b c, idMap uuid subtree a = some c → idMap uuid subtree b = some c → a = b) :
    Apart (copiedEdges uuid g p subtree) := by
  have hnodup : ((projectContainment g p).zipIdx).Pairwise (fun a b => a.1 ≠ b.1) := by
    have hrows : ((projectContainment g p).zipIdx.map Prod.fst).Pairwise (· ≠ ·) := by
      rw [List.zipIdx_map_fst]
      exact (List.Nodup.of_map Edge.id g.edges.distinct).filter _
    exact List.pairwise_map.mp hrows
  refine List.pairwise_filterMap.mpr (hnodup.imp_of_mem ?_)
  rintro ⟨e, i⟩ ⟨e', i'⟩ he he' hne c hc c' hc' x hlead hlead'
  obtain ⟨a, ha, hc⟩ := Option.bind_eq_some_iff.mp hc
  obtain ⟨b, -, hc⟩ := Option.bind_eq_some_iff.mp hc
  obtain ⟨a', ha', hc'⟩ := Option.bind_eq_some_iff.mp hc'
  obtain ⟨b', -, hc'⟩ := Option.bind_eq_some_iff.mp hc'
  cases hc
  cases hc'
  obtain ⟨hcontain, hm, rfl⟩ := hlead
  obtain ⟨hcontain', hm', rfl⟩ := hlead'
  have hmem : e ∈ g.edges.rows := List.mem_of_mem_filter (List.fst_mem_of_mem_zipIdx he)
  have hmem' : e' ∈ g.edges.rows := List.mem_of_mem_filter (List.fst_mem_of_mem_zipIdx he')
  exact hne (h.mainline e hmem e' hmem' _ ⟨hcontain, hm, rfl⟩ ⟨hcontain', hm', hinj _ _ _ ha' ha⟩)

theorem deepCopyBranch_orderly (h : Tidy start g) {load : String → Option Node}
    (hload : ∀ x, (g.nodes.get x).isSome = true → (load x).isSome = true)
    (projectId sourceNodeId name description branchId actor : String) :
    Orderly start (deepCopyBranch uuid load projectId sourceNodeId name description branchId actor now g) := by
  unfold deepCopyBranch
  dsimp only
  split
  · exact meets_error nofun
  · refine meets_guard nofun (fun _ => meets_guard nofun (fun hsubtree => ?_))
    refine (insertBranch_orderly h _).bind (fun g₁ hbranch h₁ => ?_)
    refine (insertNodes_orderly h₁ _).bind (fun g₂ hnodes h₂ => ?_)
    obtain ⟨branches, -, rfl⟩ := insertBranch_ok hbranch
    obtain ⟨nodes, hrows, rfl⟩ := insertNodes_ok hnodes
    have hadded : Added g nodes _ := added_of_rows hrows
    have hloaded : ∀ x ∈ subtreeOf g projectId sourceNodeId, ∃ old, load x = some old := by
      intro x hx
      refine Option.isSome_iff_exists.mp (hload x ?_)
      by_contra hnone
      rw [Option.not_isSome_iff_eq_none] at hnone
      exact hsubtree (List.any_eq_true.mpr ⟨x, hx, by rw [hnone]; rfl⟩)
    refine Meets.bind (insertBlocks_orderly h₂ ?_) (fun g₃ hblocks h₃ => ?_)
    · intro b hb
      obtain ⟨⟨old, i⟩, -, hb⟩ := List.mem_filterMap.mp hb
      obtain ⟨id, -, hb⟩ := Option.bind_eq_some_iff.mp hb
      cases hb
      rfl
    · refine insertEdges_orderly h₃ ?_ ?_
      · exact copiedEdges_apart h (fun a b c => idMap_injective hloaded hadded.nodup)
      · obtain ⟨blocks, -, rfl⟩ := insertBlocks_ok hblocks
        intro e he x hx
        obtain ⟨-, a, -, ha, -⟩ := mem_copiedEdges he
        obtain ⟨old, hold⟩ := hloaded a (mem_of_idMap ha)
        exact h.from_ne (hadded.fresh _ (copiedNodes_mem branchId actor (mem_of_idMap ha) hold ha)) x hx

theorem createBranch_orderly (h : Tidy start g) (projectId : String) (d : BranchCreate) :
    Orderly start (createBranch (fun _ => g) uuid now projectId d g) := by
  refine meets_guard nofun (fun _ => ?_)
  split
  · exact meets_error nofun
  · refine meets_guard nofun (fun _ => (claim_orderly h _ _).bind (fun g₁ _ h₁ => ?_))
    refine deepCopyBranch_orderly h₁ ?_ _ _ _ _ _ _
    intro x hx
    split
    · rfl
    · exact hx

theorem mergeBranch_orderly (h : Tidy start g) (branchId : String) (d : BranchMerge) :
    Orderly start (mergeBranch (fun _ => g) uuid branchId d g) := by
  unfold mergeBranch
  split
  · exact meets_error nofun
  · refine meets_guard nofun (fun _ => (claim_orderly h _ _).bind (fun g₁ _ h₁ => ?_))
    refine (check_avoids _ _ _ _).meets (fun _ _ => ?_)
    split
    · exact meets_error nofun
    · refine meets_guard nofun (fun _ => (check_avoids _ _ _ _).meets (fun _ _ => ?_))
      split
      · exact meets_error nofun
      · refine (oneOrNone_avoids harmless_clash _).meets (fun oldEdge _ => ?_)
        have hmain : Tidy start { g₁ with
            nodes := g₁.nodes.update (fun n => decide (n.branchId = some branchId)) Node.toMain Node.toMain_key } := 
          h₁.of_rows rfl rfl (get_update_isSome g₁.nodes (fun n => decide (n.branchId = some branchId)) Node.toMain Node.toMain_key)
        refine (insertChild_orderly (deleteEdges_tidy hmain _) _ _ _ _).bind (fun g₂ _ h₂ => ?_)
        exact (flushBranch_orderly h₂ _ _).bind (fun g₃ _ h₃ => flushNode_orderly h₃ _ _)

theorem archiveBranch_orderly (h : Tidy start g) (branchId : String) (expectedProject expected : Int) :
    Orderly start (archiveBranch (fun _ => g) branchId expectedProject expected g) := by
  unfold archiveBranch
  split
  · exact meets_error nofun
  · refine meets_guard nofun (fun _ => (claim_orderly h _ _).bind (fun g₁ _ h₁ => ?_))
    exact (check_avoids _ _ _ _).meets (fun _ _ => flushBranch_orderly h₁ _ _)

/-! Artifacts -/

theorem applyArtifact_orderly (h : Tidy start g) (target : Node) (payload : ArtifactPayload) :
    Orderly start (applyArtifact uuid now target payload g) := by
  cases payload with
  | createChild =>
    refine (insertNode_orderly h _).bind (fun g₁ _ h₁ => ?_)
    exact (insertChild_orderly h₁ _ _ _ _).bind (fun g₂ _ h₂ => flushNode_orderly h₂ _ _)
  | updateNode => exact flushNode_orderly h _ _
  | createBlock =>
    exact (insertBlock_orderly h (le_refl 1)).bind (fun g₁ _ h₁ => flushNode_orderly h₁ _ _)

theorem approveArtifact_orderly (h : Tidy start g) (projectId targetNodeId : String) (payload : ArtifactPayload)
    (d : ArtifactReview) : Orderly start (approveArtifact (fun _ => g) uuid now projectId targetNodeId payload d g) := by
  unfold approveArtifact
  split
  · exact meets_error nofun
  · split
    · refine (claim_orderly h _ _).bind (fun g₁ _ h₁ => ?_)
      exact (check_avoids _ _ _ _).meets (fun _ _ => applyArtifact_orderly h₁ _ _)
    · exact meets_error nofun

/-! Batches -/

theorem scopedGraph_avoids (projectId rootId : String) (limit : Int) (external : Bool) :
    Avoids Clash (scopedGraph g projectId rootId limit external) := by
  unfold scopedGraph
  split
  · exact avoids_error nofun
  · refine avoids_guard nofun (fun _ => avoids_guard nofun (fun _ => closure_avoids ?_ _))
    exact ⟨nofun, nofun, nofun, nofun, nofun, nofun⟩

theorem allowedNodes_avoids (grant : Grant) : Avoids Clash (allowedNodes g grant) := by
  unfold allowedNodes
  split
  · exact (scopedGraph_avoids _ _ _ _).bind (fun _ _ => avoids_ok _ _)
  · exact scopedGraph_avoids _ _ _ _
  · exact avoids_guard nofun (fun _ => avoids_ok _ _)

theorem reserve_avoids (draw : Nat → String) (used : List String) (ops : List (Op (Option String) × Nat)) :
    Avoids Clash (reserve draw used ops) := by
  induction ops generalizing used with
  | nil => exact avoids_ok _ _
  | cons op ops ih =>
    unfold reserve
    dsimp only
    split
    · exact (ih used).bind (fun _ _ => avoids_ok _ _)
    · exact avoids_guard nofun (fun _ => avoids_guard nofun (fun _ => (ih _).bind (fun _ _ => avoids_ok _ _)))

theorem ref_avoids (snap : Snapshot) (s : Checked) (x : String) : Avoids Clash (snap.ref s x) := by
  unfold Snapshot.ref
  split
  · exact avoids_ok _ _
  · split
    · exact avoids_ok _ _
    · exact avoids_error nofun

theorem checkRef_avoids (snap : Snapshot) (s : Checked) (field x : String) (expected : Revision) :
    Avoids Clash (snap.checkRef s field x expected) :=
  (ref_avoids snap s x).bind (fun _ _ => avoids_guard nofun (fun _ => avoids_ok _ _))

theorem checkScope_avoids (allowed refs : List String) : Avoids Clash (checkScope allowed refs) :=
  avoids_guard nofun (fun _ => avoids_ok _ _)

theorem childBranch_avoids (named inherited : Option String) : Avoids Clash (childBranch named inherited) := by
  unfold childBranch
  split
  · exact avoids_ok _ _
  · exact avoids_guard nofun (fun _ => avoids_ok _ _)

theorem checkBranch_avoids (grant : Grant) (snap : Snapshot) (branchId : Option String) :
    Avoids Clash (checkBranch grant snap branchId) := by
  unfold checkBranch
  split
  · exact avoids_ok _ _
  · dsimp only
    split <;> split
    · exact avoids_error (by rintro ⟨⟩)
    · split
      · exact avoids_ok _ _
      · split
        · exact avoids_error (by rintro ⟨⟩)
        · exact avoids_guard (by rintro ⟨⟩) (fun _ => avoids_ok _ _)
    · exact avoids_error (by rintro ⟨⟩)
    · split
      · exact avoids_ok _ _
      · split
        · exact avoids_error (by rintro ⟨⟩)
        · exact avoids_guard (by rintro ⟨⟩) (fun _ => avoids_ok _ _)

theorem checkOp_avoids (models : Bool) (grant : Grant) (snap : Snapshot) (s : Checked) (op : Op String) :
    Avoids Clash (checkOp models grant snap s op) := by
  cases op with
  | createNode id parent branchId title summary nodeType =>
    have hrest : ∀ branchId, Avoids Clash (checkBranch grant snap branchId >>= fun _ =>
        checkScope (if parent.any (fun p => decide (p.1 ∈ s.allowed ∨ p.1 ∈ snap.newNodes)) then id :: s.allowed else s.allowed)
          (parent.map Prod.fst).toList >>= fun _ =>
        pure ((⟨if parent.any (fun p => decide (p.1 ∈ s.allowed ∨ p.1 ∈ snap.newNodes)) then id :: s.allowed else s.allowed,
          Function.update s.branchOf id branchId⟩ : Checked), Op.createNode id parent branchId title summary nodeType)) := by
      intro branchId
      exact (checkBranch_avoids _ _ _).bind (fun _ _ => (checkScope_avoids _ _).bind (fun _ _ => avoids_ok _ _))
    unfold checkOp
    dsimp only
    split
    · exact avoids_error nofun
    · split
      · exact hrest branchId
      · exact (checkRef_avoids _ _ _ _ _).bind (fun _ _ => (childBranch_avoids _ _).bind (fun branchId _ => hrest branchId))
  | updateNode =>
    unfold checkOp
    dsimp only
    split
    · exact (ref_avoids _ _ _).bind (fun _ _ => avoids_error nofun)
    · split
      · exact avoids_error nofun
      · split
        · exact avoids_error nofun
        · exact (checkScope_avoids _ _).bind (fun _ _ => avoids_ok _ _)
  | createEdge =>
    refine (ref_avoids _ _ _).bind (fun _ _ => (ref_avoids _ _ _).bind (fun _ _ => ?_))
    refine (checkRef_avoids _ _ _ _ _).bind (fun _ _ => (checkRef_avoids _ _ _ _ _).bind (fun _ _ => ?_))
    dsimp only
    split
    · exact avoids_error nofun
    · exact (checkScope_avoids _ _).bind (fun _ _ => avoids_ok _ _)
  | createContentBlock =>
    exact (checkRef_avoids _ _ _ _ _).bind (fun _ _ => (checkScope_avoids _ _).bind (fun _ _ => avoids_ok _ _))
  | createBranch =>
    refine (checkRef_avoids _ _ _ _ _).bind (fun _ _ => ?_)
    dsimp only
    split
    · exact avoids_error nofun
    · exact (checkScope_avoids _ _).bind (fun _ _ => avoids_ok _ _)

theorem checkOps_avoids (models : Bool) (grant : Grant) (snap : Snapshot) (s : Checked) (ops : List (Op String)) :
    Avoids Clash (checkOps models grant snap s ops) := by
  induction ops generalizing s with
  | nil => exact avoids_ok _ _
  | cons op ops ih =>
    exact (checkOp_avoids _ _ _ _ _).bind (fun _ _ => (ih _).bind (fun _ _ => avoids_ok _ _))

theorem remember_avoids (prior rest : List (String × Revision)) : Avoids Clash (remember prior rest) := by
  induction rest generalizing prior with
  | nil => exact avoids_ok _ _
  | cons x rest ih =>
    obtain ⟨x, expected⟩ := x
    unfold remember
    split
    · exact ih _
    · exact avoids_guard nofun (fun _ => ih _)

theorem schedule_avoids (n : Nat) (pending : List (Op String × Nat)) : Avoids Clash (schedule n pending) := by
  induction n generalizing pending with
  | zero =>
    cases pending with
    | nil => exact avoids_ok _ _
    | cons => exact avoids_error nofun
  | succ n ih =>
    cases pending with
    | nil => exact avoids_ok _ _
    | cons => exact avoids_guard nofun (fun _ => (ih _).bind (fun _ _ => avoids_ok _ _))

theorem prepareBatch_avoids (draw : Nat → Nat → String) (grant : Grant) (body : Batch) :
    Avoids Clash (prepareBatch see draw grant body) := by
  have hrest : Avoids Clash (do
      let ops ← validateOperations false see (fun i => draw i 0) grant body.operations
      remember [] (ops.flatMap Op.expectations)
      let order ← schedule ops.length ops.zipIdx
      return (ops, order) : Except Err (List (Op String) × List (Op String × Nat))) := by
    refine Avoids.bind ((allowedNodes_avoids _).bind (fun _ _ => (reserve_avoids _ _ _).bind (fun _ _ => checkOps_avoids _ _ _ _ _)))
      (fun _ _ => ?_)
    exact (remember_avoids _ _).bind (fun _ _ => (schedule_avoids _ _).bind (fun _ _ => avoids_ok _ _))
  unfold prepareBatch
  split
  · exact avoids_error nofun
  · dsimp only
    split
    · exact avoids_error nofun
    · exact hrest

theorem claimBatch_orderly (h : Tidy start g) (projectId : String) (expected : Int) :
    Orderly start (claimBatch projectId expected g) := by
  unfold claimBatch
  dsimp only
  split
  · exact meets_error nofun
  · exact meets_guard nofun (fun _ => meets_ok (h.of_rows rfl rfl (fun _ hx => hx)))

theorem deferred_orderly {x : Except Err Graph} (hx : Orderly start x) : Orderly start (deferred flushed x) := by
  refine ⟨?_, fun g hg => hx.2 g (deferred_ok hg)⟩
  unfold deferred
  split
  · split
    · exact avoids_error nofun
    · exact avoids_error nofun
  · exact absurd rfl (hx.1 _ rfl)
  · exact hx.1

theorem write_orderly (h : Tidy start s.graph) (old new : Node) :
    Meets Clash (fun s' : Session => Tidy start s'.graph) (s.write old new) :=
  (flushNode_orderly h old new).bind (fun _ _ h' => meets_ok h')

theorem execute_orderly (op : Op String) (h : Tidy start s.graph) :
    Meets Clash (fun r : Session × OpResult => Tidy start r.1.graph) (execute uuid now projectId actor flushed op s) := by
  -- an operation adds no mainline edge
  have hplain : ∀ {g : Graph} {e : Edge}, Tidy start g → e.isMainline = false → Orderly start (insertEdge e g) := by
    intro g e hg he
    refine insertEdge_orderly hg ?_
    rintro x - p - ⟨-, hm, -⟩
    rw [he] at hm
    cases hm
  cases op with
  | createNode id parent =>
    refine (insertNode_orderly h _).bind (fun g₁ _ h₁ => ?_)
    cases parent with
    | none => exact meets_ok h₁
    | some => exact (deferred_orderly (hplain h₁ rfl)).bind (fun g₂ _ h₂ => meets_ok h₂)
  | updateNode =>
    unfold execute
    dsimp only
    split
    · exact meets_error nofun
    · exact (write_orderly h _ _).bind (fun s₁ _ h₁ => meets_ok h₁)
  | createEdge =>
    exact (deferred_orderly (hplain h rfl)).bind (fun g₁ _ h₁ => meets_ok h₁)
  | createContentBlock =>
    exact (deferred_orderly (insertBlock_orderly h (le_refl 1))).bind (fun g₁ _ h₁ => meets_ok h₁)
  | createBranch =>
    refine Meets.bind (deepCopyBranch_orderly h ?_ _ _ _ _ _ _) (fun g₁ _ h₁ => meets_ok h₁)
    intro x hx
    unfold Session.node
    cases s.held x with
    | none => exact hx
    | some => rfl

theorem executeAll_orderly {draw : Nat → Nat → String} (ops : List (Op String × Nat))
    (h : Tidy start s.graph) :
    Meets Clash (fun r : Session × List (OpResult × Nat) => Tidy start r.1.graph) (executeAll draw now projectId actor ops s) := by
  induction ops generalizing s with
  | nil => exact meets_ok h
  | cons op ops ih =>
    obtain ⟨op, i⟩ := op
    refine (execute_orderly op h).bind (fun r _ h₁ => ?_)
    exact (ih h₁).bind (fun r' _ h₂ => meets_ok h₂)

theorem bumpAll_orderly (xs : List String) (h : Tidy start s.graph) :
    Meets Clash (fun s' : Session => Tidy start s'.graph) (bumpAll xs s) := by
  induction xs generalizing s with
  | nil => exact meets_ok h
  | cons x xs ih =>
    unfold bumpAll
    split
    · exact ih h
    · exact (write_orderly h _ _).bind (fun s₁ _ h₁ => ih h₁)

theorem applyOperations_orderly (h : Tidy start g) (draw : Nat → Nat → String) (grant : Grant) (actor : String) (body : Batch) :
    Meets Clash (fun r : Graph × Int × List OpResult => Tidy start r.1)
      (applyOperations (fun _ => g) draw now grant actor body g) := by
  refine (prepareBatch_avoids draw grant body).meets (fun prepared _ => ?_)
  refine (claimBatch_orderly h _ _).bind (fun g₁ _ h₁ => ?_)
  refine Meets.bind (executeAll_orderly prepared.2 h₁) (fun r _ h₂ => ?_)
  exact (bumpAll_orderly _ h₂).bind (fun s _ h₃ => meets_ok h₃)

end Routes

/-! Requests -/

/-- A request that is run alone keeps the graph in order, and no write of it is refused for a second mainline child. -/
theorem Request.orderly {start g : Graph} (h : Tidy start g) (uuid : Nat → Nat → String) (now : Int) (r : Request) :
    Orderly start (r.run (fun _ => g) uuid now g) := by
  cases r with
  | createNode => exact createNode_orderly h _ _
  | updateNode => exact updateNode_orderly h _ _
  | deleteNode => exact deleteNode_orderly h _ _ _
  | createEdge => exact createEdge_orderly h _
  | updateEdge => exact updateEdge_orderly h _ _
  | promoteMainline => exact promoteMainline_orderly h _ _ _
  | promoteChildMainline => exact promoteChildMainline_orderly h _ _ _ _
  | deleteEdge => exact deleteEdge_orderly h _ _ _
  | moveNode => exact moveNode_orderly h _ _
  | reparentNode => exact reparentNode_orderly h _ _
  | createBlock => exact createBlock_orderly h _ _
  | updateBlock => exact updateBlock_orderly h _ _
  | deleteBlock => exact deleteBlock_orderly h _ _ _ _
  | createProject => exact createProject_orderly h _ _
  | updateProject => exact updateProject_orderly h _ _ _ _
  | deleteProject => exact deleteProject_orderly h _ _
  | importProject => exact importProject_orderly h _ _
  | createBranch => exact createBranch_orderly h _ _
  | mergeBranch => exact mergeBranch_orderly h _ _
  | archiveBranch => exact archiveBranch_orderly h _ _ _
  | approveArtifact => exact approveArtifact_orderly h _ _ _ _
  | batch => exact (applyOperations_orderly h _ _ _ _).bind (fun _ _ h' => meets_ok h')

theorem tidy_empty (start : Graph) : Tidy start Graph.empty where
  mainline := by
    intro e he
    cases he
  rooted := by
    intro e he
    cases he
  grown := by
    intro b hb
    cases hb

theorem reached_tidy (es : List Event) : Tidy Graph.empty (Runs.run Graph.after Graph.empty es) := by
  refine Runs.Reachable.invariant (Tidy Graph.empty) (tidy_empty _) ?_ ⟨es, rfl⟩
  intro g e h
  unfold Graph.after
  split
  · rename_i g' hrun
    exact (e.request.orderly h e.uuid e.now).2 g' hrun
  · exact h

/-- The mainline stays unique, and the schema is never tripped: from every graph whose edges leave nodes that are there
and where each node has at most one mainline child. -/
theorem mainline_unique (g : Graph) (hrooted : g.Rooted) (hone : g.OneMainline) (r : Request) (uuid : Nat → Nat → String)
    (now : Int) : r.run (fun _ => g) uuid now g ≠ .error .mainline ∧
      ∀ g', r.run (fun _ => g) uuid now g = .ok g' → g'.Rooted ∧ g'.OneMainline := by
  have h : Tidy g g := ⟨hone, hrooted, fun b hb => .inr ⟨b, hb, le_refl _⟩⟩
  obtain ⟨havoids, hok⟩ := r.orderly h uuid now
  exact ⟨fun hclash => havoids _ hclash rfl, fun g' hrun => ⟨(hok g' hrun).rooted, (hok g' hrun).mainline⟩⟩

/-- A second child of the root of the sample project. -/
theorem mainline_unique_sample :
    (Runs.run Graph.after Graph.empty sampleProject).edges.rows.any (fun e => e.isContainment && e.isMainline) = true ∧
      (Request.createNode (sampleId 0) ⟨2, some 2, "b", "", "idea", some (sampleId 1), none, "", []⟩).run
        (fun _ => Runs.run Graph.after Graph.empty sampleProject) (fun _ i => sampleId (4 + i)) 0
        (Runs.run Graph.after Graph.empty sampleProject) ≠ .error .mainline :=
  ⟨by decide +kernel, (mainline_unique _ (reached_tidy sampleProject).rooted (reached_tidy sampleProject).mainline _ _ _).1⟩

end GrowthMap.Canon
