import GrowthMap.Canon.Changes
import GrowthMap.Lib.JsonText

/- The two Markdown exports of a project.

   They load the project in two ways and share what renders it. `str` is Python's, of a decoded
   JSON value; nothing depends on what it prints. -/
namespace GrowthMap.Views

open Canon (Graph Node Project Edge ContentBlock NodeField Value Err truthy projectContainment)
open Relational

/-! Values -/

def decoded : Value → Option Json
  | .null => some .null
  | .text s => some (.str s)
  | .int n => some (.int n)
  | .real q => some (.real (toString q))
  | .list xs => some (.arr (xs.map .str))
  | .json s => Json.parse s

/-- The truth of a value; a number is false if it has no other digit than zero before its exponent. -/
def isTrue : Json → Bool
  | .null => false
  | .bool b => b
  | .int n => decide (n ≠ 0)
  | .real text => (text.toList.takeWhile (fun c => decide (c ≠ 'e' ∧ c ≠ 'E'))).any (fun c => c.isDigit && decide (c ≠ '0'))
  | .str s => decide (s ≠ "")
  | .arr items => !items.isEmpty
  | .obj fields => !fields.isEmpty

/-- `content.get(a) or content.get(b) or … or default` -/
def pick (content : List (String × Json)) (keys : List String) (default : Json) : Json :=
  ((keys.filterMap (fun k => content.lookup k)).find? isTrue).getD default

def endsLine (c : Char) : Bool :=
  decide (c.toNat ∈ [0x0a, 0x0b, 0x0c, 0x0d, 0x1c, 0x1d, 0x1e, 0x85, 0x2028, 0x2029])

/-- `splitlines`, with the characters of the line so far, the last one first. -/
def splitLines (line : List Char) : List Char → List String
  | [] => if line = [] then [] else [String.ofList line.reverse]
  | '\r' :: '\n' :: cs => String.ofList line.reverse :: splitLines [] cs
  | c :: cs => if endsLine c then String.ofList line.reverse :: splitLines [] cs else splitLines (c :: line) cs

/-! Rendering -/

/-- A block as it is rendered; its content is an object. -/
structure Block where
  blockType : String
  content : List (String × Json)

/-- `CONTENT_BLOCK_LABELS` -/
def contentBlockLabels : List (String × String) :=
  [("note", "筆記"), ("spec", "規格"), ("decision", "決策"), ("todo", "待辦"), ("risk", "風險"), ("paragraph", "段落"),
    ("resource", "文件"), ("document", "文件"), ("file", "文件")]

/-- `DOC_BLOCK_TYPES` -/
def docBlockTypes : List String := ["resource", "document", "file"]

/-- What both exports load. -/
structure Source where
  project : Project
  node : String → Option Node
  children : String → List String
  blocks : String → List Block

section Render

variable (str : Json → String)

def column (v : Value) : String := ((decoded v).map str).getD ""

def optional (v : Value) (line : String → String) : List String := if v.falsy then [] else [line (column str v)]

def contentBlockLines (b : Block) : List String :=
  let label := (contentBlockLabels.lookup b.blockType).getD b.blockType
  let title := pick b.content ["title"] (.str label)
  let body := pick b.content ["body", "summary"] (.str "")
  ("- **" ++ label ++ "｜" ++ str title ++ "**") ::
    if isTrue body then (splitLines [] (str body).toList).map (fun line => if line = "" then "" else "  " ++ line) else []

/-- `_render_content_blocks` -/
def renderContentBlocks (blocks : List Block) (headingLevel : String) : List String :=
  let contentBlocks := blocks.filter (fun b => decide (b.blockType ∉ docBlockTypes))
  if contentBlocks.isEmpty then []
  else (headingLevel ++ " 內容區塊") :: (contentBlocks.flatMap (contentBlockLines str) ++ [""])

def docLines (b : Block) : List String :=
  let title := pick b.content ["title", "name", "filename", "url", "path"] (.str "未命名文件")
  let href := pick b.content ["url", "path"] (.str "")
  let summary := pick b.content ["summary", "body"] (.str "")
  (if isTrue href then "- [" ++ str title ++ "](" ++ str href ++ ")" else "- " ++ str title) ::
    if isTrue summary then ["  - " ++ str summary] else []

/-- `_render_bound_docs` -/
def renderBoundDocs (blocks : List Block) (headingLevel : String) : List String :=
  let docs := blocks.filter (fun b => decide (b.blockType ∈ docBlockTypes))
  if docs.isEmpty then [] else (headingLevel ++ " 綁定文件") :: (docs.flatMap (docLines str) ++ [""])

def maturityBadge : Value → String
  | .text "seed" => "🌱"
  | .text "rough" => "🪨"
  | .text "developing" => "🔧"
  | .text "stable" => "✅"
  | .text "finalized" => "🏆"
  | _ => ""

def hashes (n : Nat) : String := String.ofList (List.replicate (min n 6) '#')

def nodeLines (depth : Nat) (n : Node) (blocks : List Block) : List String :=
  (hashes (depth + 2) ++ " " ++ maturityBadge (n.fields .maturity) ++ " " ++ column str (n.fields .title) ++ "\n") ::
    (optional str (n.fields .summary) (· ++ "\n") ++ renderContentBlocks str blocks (hashes (depth + 3)) ++
      renderBoundDocs str blocks (hashes (depth + 3)) ++
      if n.fields .maturity = .text "seed" then ["_⏳ 待展開_\n"] else [])

/-- `render_node`: the nodes visited and the lines so far; a node is visited once, so that the depth is bounded. -/
def renderNode (src : Source) : Nat → Nat → String → List String × List String → List String × List String
  | 0, _, _, s => s
  | n + 1, depth, nid, s =>
    if nid ∈ s.1 then s
    else match src.node nid with
      | none => s
      | some node =>
        (src.children nid).foldl (fun s cid => renderNode src n (depth + 1) cid s)
          (s.1 ++ [nid], s.2 ++ nodeLines str depth node (src.blocks nid))

def renderDocument (src : Source) (nodes : Nat) : Except Err String :=
  match truthy src.project.rootNodeId with
  | none => .error (.http 404 "No root node")
  | some root =>
    let head := ["# " ++ column str (src.project.fields .name) ++ "\n"] ++
      optional str (src.project.fields .description) (fun text => "_" ++ text ++ "_\n") ++
      optional str (src.project.fields .goal) (fun text => "**目標**: " ++ text ++ "\n") ++ ["---\n"]
    .ok ("\n".intercalate (renderNode str src nodes 0 root ([], head)).2)

end Render

/-! The visits end -/

section Visits

variable {str : Json → String} {src : Source}

theorem renderNode_visited (n depth : Nat) (nid : String) (s : List String × List String) :
    s.1 ⊆ (renderNode str src n depth nid s).1 := by
  induction n generalizing depth nid s with
  | zero => exact List.Subset.refl _
  | succ n ih =>
    unfold renderNode
    split
    · exact List.Subset.refl _
    · split
      · exact List.Subset.refl _
      · rename_i node _
        have hfold : ∀ (cs : List String) (t : List String × List String),
            t.1 ⊆ (cs.foldl (fun s cid => renderNode str src n (depth + 1) cid s) t).1 := by
          intro cs
          induction cs with
          | nil => exact fun t => List.Subset.refl _
          | cons c cs ihc => exact fun t => List.Subset.trans (ih (depth + 1) c t) (ihc _)
        exact List.Subset.trans (List.subset_append_left s.1 [nid])
          (hfold _ (s.1 ++ [nid], s.2 ++ nodeLines str depth node (src.blocks nid)))

/-- More levels than unvisited nodes change nothing. -/
theorem renderNode_ends {u : Finset String} (hu : ∀ x, (src.node x).isSome = true → x ∈ u) {n m depth : Nat} {nid : String}
    {s : List String × List String} (hfuel : (u \ s.1.toFinset).card ≤ n) (hnm : n ≤ m) :
    renderNode str src m depth nid s = renderNode str src n depth nid s := by
  induction n generalizing m depth nid s with
  | zero =>
    cases m with
    | zero => rfl
    | succ =>
      -- all nodes were visited
      unfold renderNode
      split
      · rfl
      · rename_i hnew
        split
        · rfl
        · rename_i node hnode
          have hmem : nid ∈ u \ s.1.toFinset :=
            Finset.mem_sdiff.mpr ⟨hu nid (by rw [hnode]; rfl), fun h => hnew (List.mem_toFinset.mp h)⟩
          have hpos := Finset.card_pos.mpr ⟨nid, hmem⟩
          omega
  | succ n ih =>
    obtain ⟨m, rfl⟩ : ∃ k, m = k + 1 := ⟨m - 1, by omega⟩
    unfold renderNode
    split
    · rfl
    · rename_i hnew
      split
      · rfl
      · rename_i node hnode
        have hmem : nid ∈ u \ s.1.toFinset :=
          Finset.mem_sdiff.mpr ⟨hu nid (by rw [hnode]; rfl), fun h => hnew (List.mem_toFinset.mp h)⟩
        -- one node less is unvisited, from here on
        have hless : ∀ t : List String × List String, s.1 ++ [nid] ⊆ t.1 → (u \ t.1.toFinset).card ≤ n := by
          intro t ht
          have hsub : u \ t.1.toFinset ⊆ (u \ s.1.toFinset).erase nid := by
            intro x hx
            obtain ⟨hxu, hxt⟩ := Finset.mem_sdiff.mp hx
            have hxnot : x ∉ s.1 ++ [nid] := fun h => hxt (List.mem_toFinset.mpr (ht h))
            rw [List.mem_append, List.mem_singleton, not_or] at hxnot
            exact Finset.mem_erase.mpr ⟨hxnot.2, Finset.mem_sdiff.mpr ⟨hxu, fun h => hxnot.1 (List.mem_toFinset.mp h)⟩⟩
          have hle := Finset.card_le_card hsub
          rw [Finset.card_erase_of_mem hmem] at hle
          omega
        have hfold : ∀ (cs : List String) (t : List String × List String), s.1 ++ [nid] ⊆ t.1 →
            cs.foldl (fun s cid => renderNode str src m (depth + 1) cid s) t =
              cs.foldl (fun s cid => renderNode str src n (depth + 1) cid s) t := by
          intro cs
          induction cs with
          | nil => exact fun t _ => rfl
          | cons c cs ihc =>
            intro t ht
            rw [List.foldl_cons, List.foldl_cons, ih (hless t ht) (by omega)]
            exact ihc _ (List.Subset.trans ht (renderNode_visited n (depth + 1) c t))
        exact hfold _ _ (List.Subset.refl _)

end Visits

/-! Loading -/

def mainNode (g : Graph) (p x : String) : Option Node :=
  (g.nodes.get x).filter (fun n => decide (n.projectId = p ∧ n.branchId = none))

/-- `child_map` -/
def mainChildren (g : Graph) (p x : String) : List String :=
  ((projectContainment g p).filter (fun e => decide (e.fromNodeId = x) && (mainNode g p e.fromNodeId).isSome &&
    (mainNode g p e.toNodeId).isSome)).map Edge.toNodeId

/-- The blocks of those nodes, by node and `order_index`. -/
def blockRows (g : Graph) (p : String) : List ContentBlock :=
  (g.blocks.rows.filter (fun b => (mainNode g p b.nodeId).isSome)).mergeSort (fun a b =>
    decide (a.nodeId < b.nodeId ∨ a.nodeId = b.nodeId ∧ a.orderIndex ≤ b.orderIndex))

def objectOf (v : Value) : Option (List (String × Json)) :=
  match decoded v with
  | some (.obj fields) => some fields
  | _ => none

/-- `_block_content` -/
def blockContent (v : Value) : List (String × Json) := (objectOf v).getD []

def incompatible : Err := .http 409 "Project data is not compatible with Markdown export"

def source (g : Graph) (p : String) (project : Project) (blocks : List (String × Block)) : Source where
  project
  node := mainNode g p
  children := mainChildren g p
  blocks := fun x => (blocks.filter (fun b => decide (b.1 = x))).map Prod.snd

/-- `export_project`; the ORM decodes the content of all blocks it loads. -/
def exportProject (str : Json → String) (p : String) (g : Graph) : Except Err String :=
  match g.projects.get p with
  | none => .error (.http 404 "Project not found")
  | some project =>
    if (blockRows g p).any (fun b => (decoded b.content).isNone) then .error incompatible
    else renderDocument str (source g p project ((blockRows g p).map (fun b => (b.nodeId, ⟨b.blockType, blockContent b.content⟩))))
      g.nodes.rows.length

/-- `_decode_export_content` -/
def decodeExportContent (b : ContentBlock) : Except Err (String × Block) :=
  match objectOf b.content with
  | none => .error incompatible
  | some content => .ok (b.nodeId, ⟨b.blockType, content⟩)

/-- `export_project`, query-only -/
def exportProjectQueryOnly (str : Json → String) (p : String) (g : Graph) : Except Err String :=
  match g.projects.get p with
  | none => .error (.http 404 "Project not found")
  | some project => do
    let blocks ← (blockRows g p).mapM decodeExportContent
    renderDocument str (source g p project blocks) g.nodes.rows.length

/-! Where they agree -/

theorem source_ends (str : Json → String) (g : Graph) (p : String) (project : Project) (blocks : List (String × Block))
    {n depth : Nat} {nid : String} {s : List String × List String} (hn : g.nodes.rows.length ≤ n) :
    renderNode str (source g p project blocks) n depth nid s =
      renderNode str (source g p project blocks) g.nodes.rows.length depth nid s := by
  refine @renderNode_ends str (source g p project blocks) (g.nodes.rows.map Node.id).toFinset ?_ _ _ _ _ _ ?_ hn
  · intro x hx
    obtain ⟨n, hn⟩ := Option.isSome_iff_exists.mp hx
    have hget := (Option.filter_eq_some_iff.mp hn).1
    rw [← Table.get_key hget]
    exact List.mem_toFinset.mpr (List.mem_map_of_mem (Table.get_mem hget))
  · calc ((g.nodes.rows.map Node.id).toFinset \ s.1.toFinset).card
        ≤ (g.nodes.rows.map Node.id).toFinset.card := Finset.card_le_card Finset.sdiff_subset
      _ ≤ (g.nodes.rows.map Node.id).length := List.toFinset_card_le _
      _ = g.nodes.rows.length := List.length_map _

/-- The raw rows decode if all contents are objects, and then to what the ORM has. -/
theorem decodeRows_iff {rows : List ContentBlock} {blocks : List (String × Block)} : rows.mapM decodeExportContent = .ok blocks ↔
    (∀ b ∈ rows, (objectOf b.content).isSome = true) ∧
      blocks = rows.map (fun b => (b.nodeId, ⟨b.blockType, blockContent b.content⟩)) := by
  induction rows generalizing blocks with
  | nil =>
    rw [List.mapM_nil]
    constructor
    · intro h
      cases h
      exact ⟨by simp, rfl⟩
    · rintro ⟨-, rfl⟩
      rfl
  | cons b rows ih =>
    rw [List.mapM_cons, Fallible.bind_eq_ok]
    constructor
    · rintro ⟨first, hfirst, h⟩
      obtain ⟨rest, hrest, h⟩ := Fallible.bind_ok h
      cases h
      obtain ⟨hall, rfl⟩ := ih.mp hrest
      unfold decodeExportContent at hfirst
      cases hcontent : objectOf b.content with
      | none =>
        rw [hcontent] at hfirst
        cases hfirst
      | some =>
        rw [hcontent] at hfirst
        cases hfirst
        refine ⟨?_, ?_⟩
        · intro c hc
          rcases List.mem_cons.mp hc with rfl | hc
          · rw [hcontent]
            rfl
          · exact hall c hc
        · rw [List.map_cons, blockContent, hcontent]
          rfl
    · rintro ⟨hall, rfl⟩
      obtain ⟨content, hcontent⟩ := Option.isSome_iff_exists.mp (hall b List.mem_cons_self)
      refine ⟨(b.nodeId, ⟨b.blockType, content⟩), ?_, ?_⟩
      · rw [decodeExportContent, hcontent]
      · rw [ih.mpr ⟨fun c hc => hall c (List.mem_cons_of_mem _ hc), rfl⟩, List.map_cons, blockContent, hcontent]
        rfl

theorem objectOf_decoded {v : Value} (h : (objectOf v).isSome = true) : (decoded v).isSome = true := by
  unfold objectOf at h
  cases hv : decoded v with
  | none =>
    rw [hv] at h
    cases h
  | some => rfl

theorem mem_blockRows {g : Graph} {p : String} {b : ContentBlock} :
    b ∈ blockRows g p ↔ b ∈ g.blocks.rows ∧ (mainNode g p b.nodeId).isSome = true := by
  rw [blockRows, (List.mergeSort_perm _ _).mem_iff, List.mem_filter]

/-- For every graph and project: the query-only export succeeds exactly if the other does and all contents of the main
projection are objects, and then with the same document; and the visits of both end. -/
theorem exports_agree (str : Json → String) (g : Graph) (p : String) :
    (∀ doc, exportProjectQueryOnly str p g = .ok doc ↔ exportProject str p g = .ok doc ∧
      ∀ b ∈ g.blocks.rows, (mainNode g p b.nodeId).isSome = true → (objectOf b.content).isSome = true) ∧
    ∀ project blocks n depth nid s, g.nodes.rows.length ≤ n →
      renderNode str (source g p project blocks) n depth nid s =
        renderNode str (source g p project blocks) g.nodes.rows.length depth nid s := by
  refine ⟨?_, fun project blocks n depth nid s hn => source_ends str g p project blocks hn⟩
  intro doc
  unfold exportProjectQueryOnly exportProject
  cases g.projects.get p with
  | none => simp
  | some project =>
    dsimp only
    have hobjects : (∀ b ∈ blockRows g p, (objectOf b.content).isSome = true) ↔
        ∀ b ∈ g.blocks.rows, (mainNode g p b.nodeId).isSome = true → (objectOf b.content).isSome = true := by
      simp only [mem_blockRows, and_imp]
    rw [Fallible.bind_eq_ok, ← hobjects]
    constructor
    · rintro ⟨blocks, hrows, hdoc⟩
      obtain ⟨hall, rfl⟩ := decodeRows_iff.mp hrows
      refine ⟨?_, hall⟩
      -- what is an object decodes
      have hdecodes : (blockRows g p).any (fun b => (decoded b.content).isNone) = false := by
        rw [List.any_eq_false]
        intro b hb hnone
        have hsome := objectOf_decoded (hall b hb)
        rw [Option.isNone_iff_eq_none] at hnone
        rw [hnone] at hsome
        cases hsome
      rw [hdecodes]
      exact hdoc
    · rintro ⟨hdoc, hall⟩
      obtain ⟨-, hdoc⟩ := Fallible.guard_eq_ok.mp hdoc
      exact ⟨_, decodeRows_iff.mpr ⟨hall, rfl⟩, hdoc⟩

def nullBlock : Graph :=
  Runs.run Graph.after Graph.empty
    (Canon.sampleProject ++ [Canon.sampleEvent 4 (.createBlock (Canon.sampleId 2) ⟨2, 1, "note", .null⟩)])

theorem exports_differ : (exportProject (fun _ => "") (Canon.sampleId 0) nullBlock).isOk = true ∧
    (exportProjectQueryOnly (fun _ => "") (Canon.sampleId 0) nullBlock).isOk = false := by
  decide +kernel

end GrowthMap.Views
