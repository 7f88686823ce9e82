import GrowthMap.Canon.BlockOrder

/- The copy of a subtree into a branch.

   The copy follows the `child_of` edges of the project, cycles and shared nodes included, and
   is the same graph again: node by node, block by block and edge by edge, under new ids. -/
namespace GrowthMap.Canon

open Relational Relation Table

/-! The closure of the source -/

def Graph.ContainedIn (g : Graph) (p a b : String) : Prop :=
  ∃ e ∈ projectContainment g p, e.fromNodeId = a ∧ e.toNodeId = b

def childrenIn (g : Graph) (p x : String) : List String :=
  ((projectContainment g p).filter (fun e => decide (e.fromNodeId = x))).map Edge.toNodeId

variable {g : Graph} {p a b x : String} {l : List String}

theorem mem_childrenIn : b ∈ childrenIn g p a ↔ g.ContainedIn p a b := by
  rw [childrenIn, List.mem_map]
  constructor
  · rintro ⟨e, he, hto⟩
    obtain ⟨hmem, hfrom⟩ := List.mem_filter.mp he
    exact ⟨e, hmem, of_decide_eq_true hfrom, hto⟩
  · rintro ⟨e, hmem, hfrom, hto⟩
    exact ⟨e, List.mem_filter.mpr ⟨hmem, decide_eq_true hfrom⟩, hto⟩

theorem containedIn_bounded (g : Graph) (p : String) : Forest.Bounded (childrenIn g p)
    (fun seen => ((projectContainment g p).filter (fun e => decide (e.fromNodeId ∉ seen))).length) :=
  Forest.bounded_edges (projectContainment g p) Edge.fromNodeId Edge.toNodeId

theorem containedIn_fuel (g : Graph) (p : String) :
    1 + ((projectContainment g p).filter (fun e => decide (e.fromNodeId ∉ ([] : List String)))).length ≤
      (projectContainment g p).length + 1 := by
  have hle := List.length_filter_le (fun e : Edge => decide (e.fromNodeId ∉ ([] : List String))) (projectContainment g p)
  omega

theorem subtreeOf_ends (g : Graph) (p source : String) {n : Nat} (hn : (projectContainment g p).length + 1 ≤ n) :
    Forest.preorder (childrenIn g p) n [source] [] = subtreeOf g p source :=
  Forest.preorder_ends (containedIn_bounded g p) (containedIn_fuel g p) hn

variable {source : String}

theorem mem_subtreeOf :
    x ∈ subtreeOf g p source ↔ ReflTransGen (g.ContainedIn p) source x := by
  have hrel : (fun a b => b ∈ childrenIn g p a) = g.ContainedIn p := by
    funext a b
    exact propext mem_childrenIn
  rw [← hrel]
  exact Forest.mem_preorder (containedIn_bounded g p) (containedIn_fuel g p)

theorem subtreeOf_nodup (g : Graph) (p source : String) : (subtreeOf g p source).Nodup :=
  Forest.preorder_nodup List.nodup_nil

theorem idMap_isSome {uuid : Nat → String} : (idMap uuid l x).isSome = true ↔ x ∈ l := by
  rw [idMap, Option.isSome_map, List.isSome_idxOf?]

/-! Copies -/

/-- The copy of a node: what is not null is equal. -/
structure Node.CopiedTo (old new : Node) (branchId actor : String) : Prop where
  project : new.projectId = old.projectId
  branch : new.branchId = some branchId
  fields : ∀ c, old.fields c ≠ .null → new.fields c = old.fields c
  lists : ∀ c, c = .tags ∨ c = .filePaths → old.fields c = .null → new.fields c = .list []
  editor : new.lastEditedBy = if old.lastEditedBy = "" then actor else old.lastEditedBy
  author : new.createdBy = actor
  revision : new.revision = 1

theorem copy_copiedTo (old : Node) (id branchId actor : String) : old.CopiedTo (old.copy id branchId actor) branchId actor where
  project := rfl
  branch := rfl
  fields := by
    intro c hc
    cases c <;> simp [Node.copy, listOrEmpty, NodeField.stored, hc]
  lists := by
    rintro c (rfl | rfl) hc
    · simp [Node.copy, listOrEmpty, hc]
    · simp [Node.copy, listOrEmpty, hc]
  editor := rfl
  author := rfl
  revision := rfl

def ContentBlock.said (b : ContentBlock) : String × Value × Int := (b.blockType, b.content, b.orderIndex)

def Edge.said (e : Edge) : Rat × String × Bool := (e.weight, e.note, e.isMainline)

def ownedBy (x : String) (bs : List ContentBlock) : List ContentBlock := bs.filter (fun b => decide (b.nodeId = x))

def between (x y : String) (es : List Edge) : List Edge := es.filter (fun e => decide (e.fromNodeId = x ∧ e.toNodeId = y))

/-- The rows that were added are the closure of the source under the new ids of `f`, and nothing else. -/
structure BranchCopied (g g' : Graph) (p source branchId actor : String) (f : String → Option String) (ns : List Node)
    (bs : List ContentBlock) (es : List Edge) : Prop where
  projects : g'.projects = g.projects
  branches : ∃ b : Branch, b.id = branchId ∧ b.projectId = p ∧ b.sourceNodeId = some source ∧ g.branches.get branchId = none ∧
    g'.branches.rows = g.branches.rows ++ [b]
  nodes : g'.nodes.rows = g.nodes.rows ++ ns
  blocks : g'.blocks.rows = g.blocks.rows ++ bs
  edges : g'.edges.rows = g.edges.rows ++ es
  fresh : (∀ n ∈ ns, g.nodes.get n.id = none) ∧ (∀ b ∈ bs, g.blocks.get b.id = none) ∧ ∀ e ∈ es, g.edges.get e.id = none
  closure : ∀ x, (f x).isSome = true ↔ ReflTransGen (g.ContainedIn p) source x
  injective : ∀ x y c, f x = some c → f y = some c → x = y
  copies : ∀ x c, f x = some c → ∃ old new, g.nodes.get x = some old ∧ new ∈ ns ∧ new.id = c ∧ old.CopiedTo new branchId actor
  onto : ∀ n ∈ ns, ∃ x, f x = some n.id
  owned : ∀ x c, f x = some c → ((ownedBy c bs).map ContentBlock.said).Perm ((ownedBy x g.blocks.rows).map ContentBlock.said)
  order : ∀ x c, f x = some c → ((ownedBy x g.blocks.rows).map ContentBlock.orderIndex).Nodup →
    ((ownedBy c bs).mergeSort (blockLE ContentBlock.createdAt)).map ContentBlock.said = (orderedBlocks g x).map ContentBlock.said
  owner : ∀ b ∈ bs, ∃ x, f x = some b.nodeId
  between : ∀ x y a b, f x = some a → f y = some b →
    (between a b es).map Edge.said = (between x y (projectContainment g p)).map Edge.said
  ends : ∀ e ∈ es, e.isContainment = true ∧ e.projectId = p ∧ e.revision = 1 ∧
    ∃ x y, f x = some e.fromNodeId ∧ f y = some e.toNodeId

section Renamed

variable {f : String → Option String} (hinj : ∀ x y c, f x = some c → f y = some c → x = y)
include hinj

/-- Blocks under new owners: those of a new owner are those of the old one. -/
theorem ownedBy_renamed {new : ContentBlock → Nat → String → ContentBlock}
    (hnew : ∀ b i id, (new b i id).nodeId = id ∧ (new b i id).said = b.said) {x c : String} (hx : f x = some c)
    (bs : List ContentBlock) (k : Nat) :
    (ownedBy c ((bs.zipIdx k).filterMap (fun b => (f b.1.nodeId).bind (fun id => some (new b.1 b.2 id))))).map ContentBlock.said =
      (ownedBy x bs).map ContentBlock.said := by
  induction bs generalizing k with
  | nil => rfl
  | cons b bs ih =>
    have hrest := ih (k + 1)
    unfold ownedBy at hrest ⊢
    rw [List.zipIdx_cons, List.filterMap_cons]
    cases hid : f b.nodeId with
    | none =>
      have hne : b.nodeId ≠ x := by
        intro heq
        rw [heq, hx] at hid
        cases hid
      simpa [hid, hne] using hrest
    | some id =>
      obtain ⟨howner, hsaid⟩ := hnew b k id
      have hiff : id = c ↔ b.nodeId = x := by
        constructor
        · intro heq
          exact hinj _ _ _ (heq ▸ hid) hx
        · intro heq
          rw [heq, hx] at hid
          exact (Option.some.inj hid).symm
      by_cases hb : b.nodeId = x
      · simpa [hid, howner, hsaid, hiff, hb] using hrest
      · simpa [hid, howner, hsaid, hiff, hb] using hrest

/-- Edges under new ends: those between two new nodes are those between the old ones. -/
theorem between_renamed {new : Edge → Nat → String → String → Edge}
    (hnew : ∀ e i a b, (new e i a b).fromNodeId = a ∧ (new e i a b).toNodeId = b ∧ (new e i a b).said = e.said)
    {x y a b : String} (hx : f x = some a) (hy : f y = some b) (es : List Edge) (k : Nat) :
    (between a b ((es.zipIdx k).filterMap (fun e => (f e.1.fromNodeId).bind (fun c => (f e.1.toNodeId).bind (fun d =>
      some (new e.1 e.2 c d)))))).map Edge.said = (between x y es).map Edge.said := by
  have hiff : ∀ z z' c c', f z = some c → f z' = some c' → (c = c' ↔ z = z') := by
    intro z z' c c' hz hz'
    constructor
    · rintro rfl
      exact hinj _ _ _ hz hz'
    · rintro rfl
      exact Option.some.inj (hz.symm.trans hz')
  induction es generalizing k with
  | nil => rfl
  | cons e es ih =>
    have hrest := ih (k + 1)
    unfold between at hrest ⊢
    rw [List.zipIdx_cons, List.filterMap_cons]
    cases hfrom : f e.fromNodeId with
    | none =>
      have hne : e.fromNodeId ≠ x := by
        intro heq
        rw [heq, hx] at hfrom
        cases hfrom
      simpa [hfrom, hne] using hrest
    | some c =>
      cases hto : f e.toNodeId with
      | none =>
        have hne : e.toNodeId ≠ y := by
          intro heq
          rw [heq, hy] at hto
          cases hto
        simpa [hfrom, hto, hne] using hrest
      | some d =>
        obtain ⟨hc, hd, hsaid⟩ := hnew e k c d
        have hends : c = a ∧ d = b ↔ e.fromNodeId = x ∧ e.toNodeId = y :=
          and_congr (hiff _ _ _ _ hfrom hx) (hiff _ _ _ _ hto hy)
        by_cases he : e.fromNodeId = x ∧ e.toNodeId = y
        · simpa [hfrom, hto, hc, hd, hsaid, hends, he] using hrest
        · simpa [hfrom, hto, hc, hd, hsaid, hends, he] using hrest

end Renamed

/-- What is grouped by owner has the group of each. -/
theorem ownedBy_flatMap {s : String → List ContentBlock} (hs : ∀ y, ∀ b ∈ s y, b.nodeId = y) (hl : l.Nodup)
    (hx : x ∈ l) : ownedBy x (l.flatMap s) = s x := by
  induction l with
  | nil => cases hx
  | cons y l ih =>
    have hnone : ∀ z, z ∉ l → ownedBy z (l.flatMap s) = [] := by
      intro z hz
      refine List.filter_eq_nil_iff.mpr ?_
      intro b hb hown
      obtain ⟨w, hw, hb⟩ := List.mem_flatMap.mp hb
      rw [← of_decide_eq_true hown, hs w b hb] at hz
      exact hz hw
    rw [List.flatMap_cons, ownedBy, List.filter_append]
    obtain ⟨hy, hl⟩ := List.nodup_cons.mp hl
    rcases List.mem_cons.mp hx with rfl | hx
    · have hall : (s x).filter (fun b => decide (b.nodeId = x)) = s x :=
        List.filter_eq_self.mpr (fun b hb => decide_eq_true (hs x b hb))
      rw [hall]
      exact (congrArg (s x ++ ·) (hnone x hy)).trans (List.append_nil _)
    · have hnil : (s y).filter (fun b => decide (b.nodeId = x)) = [] := by
        refine List.filter_eq_nil_iff.mpr ?_
        intro b hb hown
        rw [← hs y b hb, of_decide_eq_true hown] at hy
        exact hy hx
      rw [hnil, List.nil_append]
      exact ih hl hx

theorem said_sorted {key : ContentBlock → Int} {as bs : List ContentBlock}
    (hperm : (as.map ContentBlock.said).Perm (bs.map ContentBlock.said)) (hplaces : (bs.map ContentBlock.orderIndex).Nodup) :
    (as.mergeSort (blockLE key)).map ContentBlock.said = (bs.mergeSort (blockLE key)).map ContentBlock.said := by
  have hsorted : ∀ l : List ContentBlock, ((l.mergeSort (blockLE key)).map ContentBlock.said).Pairwise (fun a b => a.2.2 ≤ b.2.2) := by
    intro l
    rw [List.pairwise_map]
    refine (List.pairwise_mergeSort blockLE_trans blockLE_total l).imp ?_
    intro a b hab
    rcases blockLE_iff.mp hab with hlt | ⟨heq, -⟩
    · exact le_of_lt hlt
    · exact le_of_eq heq
  have hsame : ((as.mergeSort (blockLE key)).map ContentBlock.said).Perm ((bs.mergeSort (blockLE key)).map ContentBlock.said) :=
    (((List.mergeSort_perm as _).map _).trans hperm).trans ((List.mergeSort_perm bs _).map _).symm
  refine List.Perm.eq_of_pairwise ?_ (hsorted as) (hsorted bs) hsame
  intro a b ha hb hab hba
  -- a place says who stands there
  have hnodup : (((bs.mergeSort (blockLE key)).map ContentBlock.said).map (fun a => a.2.2)).Nodup := by
    rw [List.map_map]
    exact ((List.mergeSort_perm bs (blockLE key)).map ContentBlock.orderIndex).nodup_iff.mpr hplaces
  exact List.inj_on_of_nodup_map hnodup (hsame.subset ha) hb (le_antisymm hab hba)

section Copy

variable {g g' : Graph} {uuid : Nat → String} {p source name description branchId actor : String} {now : Int}

theorem ownedBy_copiedBlocks (hinj : ∀ x y c, idMap uuid (subtreeOf g p source) x = some c →
    idMap uuid (subtreeOf g p source) y = some c → x = y) {c : String} (hx : idMap uuid (subtreeOf g p source) x = some c) :
    (ownedBy c (copiedBlocks uuid g (subtreeOf g p source) actor now)).map ContentBlock.said =
      ((ownedBy x g.blocks.rows).mergeSort (blockLE (fun _ => 0))).map ContentBlock.said := by
  have howner : ∀ y, ∀ b ∈ (ownedBy y g.blocks.rows).mergeSort (blockLE (fun _ => 0)), b.nodeId = y := by
    intro y b hb
    exact of_decide_eq_true (List.mem_filter.mp ((List.mergeSort_perm _ _).subset hb)).2
  have hgroup := ownedBy_flatMap howner (subtreeOf_nodup g p source) (mem_of_idMap hx)
  rw [← hgroup]
  exact @ownedBy_renamed _ hinj (fun b i id => { b with
    id := uuid ((subtreeOf g p source).length + i), nodeId := id, createdBy := actor, createdAt := now, revision := 1 })
    (fun _ _ _ => ⟨rfl, rfl⟩) _ _ hx _ 0

theorem between_copiedEdges (hinj : ∀ x y c, idMap uuid (subtreeOf g p source) x = some c →
    idMap uuid (subtreeOf g p source) y = some c → x = y) {y : String} (hx : idMap uuid (subtreeOf g p source) x = some a)
    (hy : idMap uuid (subtreeOf g p source) y = some b) :
    (between a b (copiedEdges uuid g p (subtreeOf g p source))).map Edge.said =
      (between x y (projectContainment g p)).map Edge.said :=
  @between_renamed _ hinj (fun e i a b => { e with
    id := uuid ((subtreeOf g p source).length + g.blocks.rows.length + i), fromNodeId := a, toNodeId := b, revision := 1 })
    (fun _ _ _ _ => ⟨rfl, rfl, rfl⟩) _ _ _ _ hx hy _ 0

theorem copiedEdges_ends {e : Edge} (he : e ∈ copiedEdges uuid g p (subtreeOf g p source)) : e.isContainment = true ∧
    e.projectId = p ∧ e.revision = 1 ∧
    ∃ x y, idMap uuid (subtreeOf g p source) x = some e.fromNodeId ∧ idMap uuid (subtreeOf g p source) y = some e.toNodeId := by
  obtain ⟨hproject, a, b, ha, hb⟩ := mem_copiedEdges he
  obtain ⟨⟨old, i⟩, hold, he⟩ := List.mem_filterMap.mp he
  obtain ⟨c, -, he⟩ := Option.bind_eq_some_iff.mp he
  obtain ⟨d, -, he⟩ := Option.bind_eq_some_iff.mp he
  cases he
  have hmem := (List.mem_filter.mp (List.fst_mem_of_mem_zipIdx hold)).2
  exact ⟨(Bool.and_eq_true_iff.mp hmem).2, hproject, rfl, a, b, ha, hb⟩

theorem Copied.branchCopied (h : Copied uuid g.nodes.get p source name description branchId actor now g g') :
    BranchCopied g g' p source branchId actor (idMap uuid (subtreeOf g p source))
      (copiedNodes uuid g.nodes.get (subtreeOf g p source) branchId actor)
      (copiedBlocks uuid g (subtreeOf g p source) actor now) (copiedEdges uuid g p (subtreeOf g p source)) := by
  have hrows := h.rowsOf
  have hload : ∀ x ∈ subtreeOf g p source, ∃ old, g.nodes.get x = some old := fun x hx => (h.has x hx).imp fun _ hn => hn.1
  have hinj : ∀ x y c, idMap uuid (subtreeOf g p source) x = some c → idMap uuid (subtreeOf g p source) y = some c → x = y :=
    fun x y c => idMap_injective hload (added_of_rows hrows.nodes).nodup
  exact {
    projects := hrows.projects
    branches := by
      refine ⟨_, rfl, rfl, rfl, ?_, hrows.branches⟩
      exact fresh_of_append hrows.branches _ List.mem_cons_self
    nodes := hrows.nodes
    blocks := hrows.blocks
    edges := hrows.edges
    fresh := ⟨fresh_of_append hrows.nodes, fresh_of_append hrows.blocks, fresh_of_append hrows.edges⟩
    closure := by
      intro x
      rw [idMap_isSome, mem_subtreeOf]
    injective := hinj
    copies := by
      intro x c hc
      obtain ⟨old, hold⟩ := hload x (mem_of_idMap hc)
      exact ⟨old, _, hold, copiedNodes_mem branchId actor (mem_of_idMap hc) hold hc, rfl, copy_copiedTo old c branchId actor⟩
    onto := by
      intro n hn
      obtain ⟨x, -, old, id, -, hid, rfl⟩ := mem_copiedNodes hn
      exact ⟨x, hid⟩
    owned := by
      intro x c hc
      rw [ownedBy_copiedBlocks hinj hc]
      exact (List.mergeSort_perm _ _).map _
    order := by
      intro x c hc hplaces
      refine said_sorted ?_ hplaces
      rw [ownedBy_copiedBlocks hinj hc]
      exact (List.mergeSort_perm _ _).map _
    owner := fun b hb => mem_copiedBlocks hb
    between := fun x y a b hx hy => between_copiedEdges hinj hx hy
    ends := fun e he => copiedEdges_ends he }

end Copy

theorem Wf.containedIn (hw : Wf g) (hsource : g.Has p source) (x : String) :
    ReflTransGen (g.ContainedIn p) source x ↔ ReflTransGen (fun a b => b ∈ g.children a) source x := by
  constructor
  · refine ReflTransGen.mono ?_ source x
    rintro a b ⟨e, he, rfl, rfl⟩
    obtain ⟨hrow, hcond⟩ := List.mem_filter.mp he
    exact mem_children.mpr (mem_arcs.mpr ⟨e, hrow, (Bool.and_eq_true_iff.mp hcond).2, rfl, rfl⟩)
  · intro h
    suffices hboth : ReflTransGen (g.ContainedIn p) source x ∧ g.Has p x from hboth.1
    induction h with
    | refl => exact ⟨.refl, hsource⟩
    | tail _ hstep ih =>
      obtain ⟨hpath, hhas⟩ := ih
      obtain ⟨e, he, hc, rfl, rfl⟩ := mem_arcs.mp (mem_children.mp hstep)
      have hproject : e.projectId = p := (hw.from_has he).unique hhas
      refine ⟨hpath.tail ⟨e, List.mem_filter.mpr ⟨he, ?_⟩, rfl, rfl⟩, hproject ▸ hw.to_has he⟩
      rw [hc, hproject, decide_eq_true rfl, Bool.and_self]

/-- The copy of a branch ends, and is an isomorphic copy under new ids that leaves all rows as they are. -/
theorem deepCopyBranch_exact (g : Graph) (uuid : Nat → String) (p source name description branchId actor : String) (now : Int) :
    -- the walk ends: more turns change nothing
    (∀ n, (projectContainment g p).length + 1 ≤ n →
      Forest.preorder (childrenIn g p) n [source] [] = subtreeOf g p source) ∧
    (∀ g', deepCopyBranch uuid g.nodes.get p source name description branchId actor now g = .ok g' →
      ∃ f ns bs es, BranchCopied g g' p source branchId actor f ns bs es) ∧
    -- the edges of the project are all edges there
    (Wf g → g.Has p source → ∀ x,
      ReflTransGen (g.ContainedIn p) source x ↔ ReflTransGen (fun a b => b ∈ g.children a) source x) := by
  refine ⟨fun n hn => subtreeOf_ends g p source hn, ?_, fun hw hsource x => hw.containedIn hsource x⟩
  intro g' h
  exact ⟨_, _, _, _, (deepCopyBranch_ok h).branchCopied⟩

/-- A node whose tags were set to null. -/
def untagged : Graph :=
  Runs.run Graph.after Graph.empty (sampleProject ++ [sampleEvent 4 (.updateNode (sampleId 2) ⟨2, 1, [(.tags, .null)]⟩)])

/-- An edge between two nodes of a project that is said to belong to another. -/
def mislabelled : Graph :=
  { Graph.empty with
    projects := ⟨[⟨"p", none, fun _ => .text "", 1⟩, ⟨"q", none, fun _ => .text "", 1⟩], by decide⟩
    nodes := ⟨[⟨"a", "p", none, fun _ => .text "", "", "", 1⟩, ⟨"b", "p", none, fun _ => .text "", "", "", 1⟩], by decide⟩
    edges := ⟨[⟨"e", "q", "a", "b", "child_of", 1, "", false, 1⟩], by decide⟩ }

/-- The tags of the copy differ; the child by an edge of another project is not copied. -/
theorem copy_differs :
    ((untagged.nodes.get (sampleId 2)).map (fun n => n.fields .tags) = some .null ∧
      (deepCopyBranch (fun i => sampleId (5 + i)) untagged.nodes.get (sampleId 0) (sampleId 2) "b" "" (sampleId 4) "branch" 0
        untagged).toOption.bind (fun g' => (g'.nodes.get (sampleId 5)).map (fun n => n.fields .tags)) = some (.list [])) ∧
    mislabelled.children "a" = ["b"] ∧
      (deepCopyBranch (fun i => sampleId (5 + i)) mislabelled.nodes.get "p" "a" "b" "" (sampleId 4) "branch" 0
        mislabelled).toOption.map (fun g' => g'.nodes.rows.map Node.id) = some ["a", "b", sampleId 5] := by
  refine ⟨⟨?_, ?_⟩, ?_, ?_⟩
  · decide +kernel
  · decide +kernel
  · decide +kernel
  · decide +kernel

end GrowthMap.Canon
