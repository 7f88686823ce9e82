import GrowthMap.Client.World

/- Accepting what the AI suggests.

   `acceptAllSuggestions` and `acceptDeepen` send one request for each suggestion or block and
   wait for its answer before the next. A run of either, alone, is a list of exchanges
   (`Plays`), and its answers are any: a success, a conflict, another failure.

   What is created and what the store still offers should make up what was offered. The loop
   over the suggestions leaves the whole list offered unless it comes to its end, so this holds
   when nothing was created or everything was. The loop over the blocks goes on after a
   conflict, keeps the block offered, and at its end dismisses whatever is left; so this holds
   when everything was created or an answer broke the loop off (`offered_once_iff`). -/
namespace GrowthMap.Client

open Fallible

/-- A request, or why it could not be made, and what its `await` gives. -/
abbrev Exchange := Except ApiError HttpRequest × Except ApiError Reply

def fits : HttpRequest → Reply → Bool
  | .listProjects, .projects _ | .subtree _, .tree _ | .listBranches _, .branches _
  | .branchSubtree _, .branchTree _ | .createNode .., .node _ | .updateNode .., .node _
  | .createBranch .., .branch _ | .createBlock .., .block _ | .deleteNode .., .done
  | .promoteChild .., .done | .reparent .., .done | .archiveBranch .., .done
  | .mergeBranch .., .done => true
  | _, _ => false

/-- A request that could not be made fails with its error; any other may be answered or fail. -/
def Exchange.Possible : Exchange → Prop
  | (.error e, reply) => reply = .error e
  | (.ok r, .ok reply) => fits r reply = true
  | (.ok _, .error _) => True

def Exchange.failed : Exchange → Bool
  | (_, .error _) => true
  | (_, .ok _) => false

def Exchange.breaks : Exchange → Bool
  | (.ok (.createBlock ..), .error e) => !e.isConflict
  | (_, .error _) => true
  | (_, .ok _) => false

/-- An action that runs alone from where it waits, the exchanges it makes, and what it leaves. -/
inductive Plays : Cache → Store → List Call → List Exchange → Store → Prop where
  | ended (cache : Cache) (s : Store) : Plays cache s [] [] s
  | next {cache : Cache} {s s' : Store} {call : Call} {xs : List Exchange} (sent : Nat)
      (reply : Except ApiError Reply) (hx : Exchange.Possible (call.request, reply))
      (h : Plays (rememberReply reply cache)
        (resume (rememberReply reply cache) sent s call.frame reply).1
        (resume (rememberReply reply cache) sent s call.frame reply).2 xs s') :
      Plays cache s [call] ((call.request, reply) :: xs) s'

/-- `acceptAllSuggestions`, with the answer to its `confirm`. -/
def acceptAll (confirmed : Bool) (cache : Cache) (sent : Nat) (s : Store) : Store × List Call :=
  if confirmed then start cache sent s .acceptAllSuggestions else (s, [])

def Exchange.suggestion : Exchange → Option Suggestion
  | (.ok (.createNode _ d), .ok _) => some ⟨d.title, d.summary, d.nodeType⟩
  | _ => none

def Exchange.block : Exchange → Option DeepenBlock
  | (.ok (.createBlock _ d), .ok _) => some ⟨d.blockType, d.content⟩
  | _ => none

def suggestionsCreated (xs : List Exchange) : List Suggestion := xs.filterMap Exchange.suggestion

def blocksCreated (xs : List Exchange) : List DeepenBlock := xs.filterMap Exchange.block

def Store.offeredSuggestions (s : Store) : List Suggestion := s.expandSuggestions.getD []

def Store.offeredBlocks (s : Store) : List DeepenBlock :=
  (s.deepenResult.map DeepenResult.contentBlocks).getD []

/-! Exchanges -/

section

variable {cache : Cache} {s s' : Store} {xs : List Exchange}

theorem plays_nil (h : Plays cache s [] xs s') : xs = [] ∧ s' = s := by
  cases h
  exact ⟨rfl, rfl⟩

theorem plays_call {call : Call} (h : Plays cache s [call] xs s') :
    ∃ reply rest sent, xs = (call.request, reply) :: rest ∧ Exchange.Possible (call.request, reply) ∧
      Plays (rememberReply reply cache)
        (resume (rememberReply reply cache) sent s call.frame reply).1
        (resume (rememberReply reply cache) sent s call.frame reply).2 rest s' := by
  cases h with
  | next sent reply hx h => exact ⟨_, _, sent, rfl, hx, h⟩

variable {r : HttpRequest} {nodeId : String} {e : ApiError} {sent : Nat} {x : Exchange} {branch : Option Canon.Branch}
  {target : String} {pending kept : List DeepenBlock} {shown : Bool} {next : AfterRefresh}

/-- `createNode` asks for the suggestion. -/
theorem suggestionCall_asks {project : Canon.Project}
    {suggestion : Suggestion} (h : suggestionCall cache project branch target suggestion = .ok r) :
    ∃ projectId d, r = .createNode projectId d ∧
      (⟨d.title, d.summary, d.nodeType⟩ : Suggestion) = suggestion := by
  have hsent : ∀ revision : Option Int, (do
      let expected ← cache.projectExpected project.id
      return HttpRequest.createNode project.id ⟨expected, revision, suggestion.title, suggestion.summary,
        suggestion.nodeType, some target, branch.map Canon.Branch.id, "", []⟩) = Except.ok r →
      ∃ projectId d, r = .createNode projectId d ∧
        (⟨d.title, d.summary, d.nodeType⟩ : Suggestion) = suggestion := by
    intro revision hr
    obtain ⟨expected, -, hr⟩ := bind_ok hr
    cases hr
    exact ⟨_, _, rfl, rfl⟩
  unfold suggestionCall apiCreateNode at h
  dsimp only at h
  split at h
  · exact hsent none h
  · split at h
    · cases h
    · exact hsent (some _) h

/-- `createBlock` asks for the block. -/
theorem apiCreateBlock_asks {block : DeepenBlock}
    (h : apiCreateBlock cache nodeId block.blockType block.content = .ok r) :
    ∃ d, r = .createBlock nodeId d ∧ (⟨d.blockType, d.content⟩ : DeepenBlock) = block := by
  unfold apiCreateBlock at h
  obtain ⟨expected, -, h⟩ := bind_ok h
  cases h
  exact ⟨_, rfl, rfl⟩

/-- `updateNode` asks for the update. -/
theorem apiUpdateNode_asks {given : Option (Int × Int)}
    {changes : List (Canon.NodeField × Canon.Value)}
    (h : apiUpdateNode cache nodeId given changes = .ok r) : ∃ d, r = .updateNode nodeId d := by
  unfold apiUpdateNode at h
  obtain ⟨expected, -, h⟩ := bind_ok h
  cases h
  exact ⟨_, rfl⟩

/-- A block that cannot be asked for is no conflict. -/
theorem apiCreateBlock_error {blockType : String} {content : Canon.Value}
    (h : apiCreateBlock cache nodeId blockType content = .error e) : e.isConflict = false := by
  unfold apiCreateBlock Cache.nodeExpected Cache.projectExpected at h
  cases hn : cache.nodes nodeId with
  | none =>
    rw [hn] at h
    cases h
    rfl
  | some row =>
    obtain ⟨projectId, revision⟩ := row
    rw [hn] at h
    cases hp : cache.projects projectId with
    | none =>
      simp only [hp] at h
      cases h
      rfl
    | some expected =>
      simp only [hp] at h
      by_cases hz : expected = 0
      · rw [if_pos hz] at h
        cases h
        rfl
      · rw [if_neg hz] at h
        cases h

theorem refresh_exchange (project : Canon.Project) (branch : Option Canon.Branch)
    (reply : Except ApiError Reply) :
    Exchange.suggestion (.ok (treeSource project branch), reply) = none ∧
      Exchange.block (.ok (treeSource project branch), reply) = none ∧
      Exchange.breaks (.ok (treeSource project branch), reply) =
        Exchange.failed (.ok (treeSource project branch), reply) := by
  unfold treeSource
  cases branch <;> cases reply <;> exact ⟨rfl, rfl, rfl⟩

theorem resume_refresh (s : Store) (cache : Cache) (sent since : Nat) (next : AfterRefresh) {project : Canon.Project}
    {reply : Reply} (h : fits (treeSource project branch) reply = true) :
    ∃ shown, resume cache sent s (.refresh (treeSource project branch) since next) (.ok reply) =
      afterRefresh cache { s with rootNode := shown } next := by
  unfold treeSource at h ⊢
  cases branch with
  | none =>
    cases reply with
    | tree => exact ⟨_, rfl⟩
    | _ => cases h
  | some =>
    cases reply with
    | branchTree => exact ⟨_, rfl⟩
    | _ => cases h

/-- A refusal of `runMutationWithConflict` outside a block ends the action: what is offered stays,
and nothing more is created. -/
theorem refused_ends
    (h : Plays cache (onFailure cache sent s e .conflict).1 (onFailure cache sent s e .conflict).2 xs s') :
    s'.expandSuggestions = s.expandSuggestions ∧ s'.deepenResult = s.deepenResult ∧
      suggestionsCreated xs = [] ∧ blocksCreated xs = [] := by
  unfold onFailure at h
  split at h
  · unfold refreshTree at h
    cases hp : s.currentProject with
    | none =>
      rw [hp] at h
      obtain ⟨rfl, rfl⟩ := plays_nil h
      exact ⟨rfl, rfl, rfl, rfl⟩
    | some project =>
      rw [hp] at h
      obtain ⟨reply, rest, sent', rfl, hx, h⟩ := plays_call h
      obtain ⟨hsuggestion, hblock, -⟩ := refresh_exchange project s.currentBranch reply
      simp only [suggestionsCreated, blocksCreated, List.filterMap_cons, hsuggestion, hblock]
      cases reply with
      | error =>
        obtain ⟨rfl, rfl⟩ := plays_nil h
        exact ⟨rfl, rfl, rfl, rfl⟩
      | ok reply =>
        obtain ⟨shown, hr⟩ := resume_refresh s (rememberReply (.ok reply) cache) sent' sent .conflict hx
        rw [hr] at h
        obtain ⟨rfl, rfl⟩ := plays_nil h
        exact ⟨rfl, rfl, rfl, rfl⟩
  · obtain ⟨rfl, rfl⟩ := plays_nil h
    exact ⟨rfl, rfl, rfl, rfl⟩

/-! The suggestions -/

/-- What became of the suggestions `rest` of the list `all`: all of them were created and
nothing is offered, or a first part was and the whole list still is. -/
inductive Accepted (all rest : List Suggestion) (xs : List Exchange) (s' : Store) : Prop where
  | whole (hc : suggestionsCreated xs = rest) (hx : ∀ x ∈ xs, x.failed = false)
      (ho : s'.offeredSuggestions = [])
  | part (k : Nat) (hk : k ≤ rest.length) (hc : suggestionsCreated xs = rest.take k)
      (hx : ∃ x ∈ xs, x.failed = true) (ho : s'.offeredSuggestions = all)
      (hfirst : rest ≠ [] → (k = 0 ↔ ∃ x, xs.head? = some x ∧ x.failed = true))

/-- The loop of `acceptAllSuggestions`. -/
theorem acceptNext_plays {all : List Suggestion} {project : Canon.Project}
    (rest : List Suggestion) {tree : GNode} (hall : s.expandSuggestions = some all)
    (hp : s.currentProject.isSome)
    (h : Plays cache (acceptNext cache sent s project target tree rest).1
      (acceptNext cache sent s project target tree rest).2 xs s') : Accepted all rest xs s' := by
  induction rest generalizing cache s sent tree xs with
  | nil =>
    obtain ⟨p, hp⟩ := Option.isSome_iff_exists.mp hp
    simp only [acceptNext, refreshTree, hp] at h
    obtain ⟨reply, xs, sent', rfl, hx, h⟩ := plays_call h
    obtain ⟨hquiet, -, -⟩ := refresh_exchange p s.currentBranch reply
    cases reply with
    | error =>
      obtain ⟨rfl, rfl⟩ := plays_nil h
      refine .part 0 (Nat.le_refl _) ?_ ⟨_, List.mem_cons_self, rfl⟩ ?_ (fun hne => absurd rfl hne)
      · simp [suggestionsCreated, hquiet]
      · simp [Store.offeredSuggestions, hall]
    | ok reply =>
      obtain ⟨shown, hr⟩ := resume_refresh s (rememberReply (.ok reply) cache) sent' sent .acceptedAll hx
      simp only [hr, afterRefresh] at h
      obtain ⟨rfl, rfl⟩ := plays_nil h
      refine .whole ?_ ?_ rfl
      · simp [suggestionsCreated, hquiet]
      · intro x hx
        rw [List.mem_singleton.mp hx]
        rfl
  | cons suggestion rest ih =>
    simp only [acceptNext] at h
    obtain ⟨reply, xs, sent', rfl, hx, h⟩ := plays_call h
    cases reply with
    | error e =>
      -- refused: the rest is not tried, and the list stays
      obtain ⟨ho, -, hnone, -⟩ := refused_ends h
      have hquiet : Exchange.suggestion
          (suggestionCall cache project s.currentBranch target suggestion, .error e) = none := by
        cases suggestionCall cache project s.currentBranch target suggestion with
        | error => rfl
        | ok r => cases r <;> rfl
      refine .part 0 (Nat.zero_le _) ?_ ⟨_, List.mem_cons_self, rfl⟩ ?_ ?_
      · rw [suggestionsCreated, List.filterMap_cons, hquiet, List.take_zero]
        exact hnone
      · rw [Store.offeredSuggestions, ho, hall, Option.getD_some]
      · exact fun _ => ⟨fun _ => ⟨_, rfl, rfl⟩, fun _ => rfl⟩
    | ok reply =>
      cases hreq : suggestionCall cache project s.currentBranch target suggestion with
      | error =>
        rw [hreq] at hx
        exact nomatch hx
      | ok =>
        obtain ⟨projectId, d, rfl, hd⟩ := suggestionCall_asks hreq
        rw [hreq] at hx
        cases reply with
        | node saved =>
          have hcreated : ∀ ys, suggestionsCreated ((.ok (.createNode projectId d), .ok (.node saved)) :: ys) =
              suggestion :: suggestionsCreated ys := by
            intro ys
            simp [suggestionsCreated, Exchange.suggestion, hd]
          obtain ⟨p, hp⟩ := Option.isSome_iff_exists.mp hp
          simp only [resume, hp] at h
          rcases ih (by exact hall) rfl h with ⟨hc, hok, ho⟩ | ⟨k, hk, hc, ⟨x, hmem, hfail⟩, ho, -⟩
          · refine .whole (by rw [hcreated, hc]) ?_ ho
            intro x hx
            rcases List.mem_cons.mp hx with rfl | hx
            · rfl
            · exact hok x hx
          · refine .part (k + 1) (by simpa using hk) (by rw [hcreated, hc, List.take_succ_cons])
              ⟨x, List.mem_cons_of_mem _ hmem, hfail⟩ ho ?_
            exact fun _ => ⟨fun hz => absurd hz (Nat.succ_ne_zero k), fun ⟨x, hx, hf⟩ => by
              cases hx
              exact absurd hf Bool.false_ne_true⟩
        | _ => cases hx

/-- Of the suggestions, what is created and what is still offered make up what was offered
exactly when the first request fails or none does. -/
theorem acceptAll_once_iff {confirmed : Bool}
    (h : Plays cache (acceptAll confirmed cache sent s).1 (acceptAll confirmed cache sent s).2 xs s') :
    (suggestionsCreated xs ++ s'.offeredSuggestions).Perm s.offeredSuggestions ↔
      s.offeredSuggestions = [] ∨ (∃ x, xs.head? = some x ∧ x.failed = true) ∨
        ∀ x ∈ xs, x.failed = false := by
  have hidle : xs = [] → s' = s →
      ((suggestionsCreated xs ++ s'.offeredSuggestions).Perm s.offeredSuggestions ↔
        s.offeredSuggestions = [] ∨ (∃ x, xs.head? = some x ∧ x.failed = true) ∨
          ∀ x ∈ xs, x.failed = false) := by
    rintro rfl rfl
    exact iff_of_true (.refl _) (.inr (.inr fun x hx => absurd hx List.not_mem_nil))
  unfold acceptAll at h
  split at h
  · simp only [start] at h
    split at h
    · next suggestions target project shown hs _ hp _ =>
      have hoffered : s.offeredSuggestions = suggestions := by simp [Store.offeredSuggestions, hs]
      rcases acceptNext_plays suggestions hs (by simp [hp]) h with
        ⟨hc, hx, ho⟩ | ⟨k, hk, hc, ⟨x, hmem, hfail⟩, ho, hfirst⟩
      · rw [hc, ho, hoffered, List.append_nil]
        exact iff_of_true (.refl _) (.inr (.inr hx))
      · rw [hc, ho, hoffered]
        -- the first `k` are both created and offered
        have hperm : (suggestions.take k ++ suggestions).Perm suggestions ↔ k = 0 := by
          constructor
          · intro hperm
            have hlen := hperm.length_eq
            rw [List.length_append, List.length_take_of_le hk] at hlen
            omega
          · rintro rfl
            exact .refl _
        rw [hperm]
        constructor
        · intro hz
          by_cases hne : suggestions = []
          · exact .inl hne
          · exact .inr (.inl ((hfirst hne).mp hz))
        · rintro (hnil | hhead | hall)
          · rw [hnil] at hk
            exact Nat.le_zero.mp hk
          · by_cases hne : suggestions = []
            · rw [hne] at hk
              exact Nat.le_zero.mp hk
            · exact (hfirst hne).mpr hhead
          · rw [hall x hmem] at hfail
            exact absurd hfail Bool.false_ne_true
    · exact hidle (plays_nil h).1 (plays_nil h).2
  · exact hidle (plays_nil h).1 (plays_nil h).2

/-! The blocks -/

/-- The run was broken off: its last answer is a failure, and no conflict of a block. -/
def Broken (xs : List Exchange) : Prop := ∃ x, xs.getLast? = some x ∧ x.breaks = true

theorem breaks_of_answered (h : x.failed = false) : x.breaks = false := by
  obtain ⟨request, reply⟩ := x
  cases reply with
  | error => cases h
  | ok =>
    cases request with
    | error => rfl
    | ok r => cases r <;> rfl

theorem broken_cons (hx : x.breaks = false) : Broken (x :: xs) ↔ Broken xs := by
  unfold Broken
  cases xs with
  | nil => simp [hx]
  | cons => rw [List.getLast?_cons_cons]

/-- What became of the blocks `pending`, when those of `kept` had met a conflict: the run was
broken off and nothing is lost, or it came to its end and what was not created is dismissed. -/
inductive Wrote (pending kept : List DeepenBlock) (shown : Bool) (xs : List Exchange) (s' : Store) : Prop where
  | broken (hb : Broken xs) (ho : (blocksCreated xs ++ s'.offeredBlocks).Perm (pending ++ kept))
  | whole (hb : ¬ Broken xs) (ho : s'.offeredBlocks = []) (hx : ∀ x ∈ xs, x.failed = false)
      (hc : (blocksCreated xs).Perm pending)
  | dropped (hb : ¬ Broken xs) (ho : s'.offeredBlocks = [])
      (hc : (blocksCreated xs).length < pending.length) (hx : shown = true → ∃ x ∈ xs, x.failed = true)

/-- One more block before, which was created. -/
theorem Wrote.created {pending kept : List DeepenBlock} {block : DeepenBlock} {x : Exchange}
    (h : Wrote pending kept true xs s') (hx : x.block = some block) (hok : x.failed = false) :
    Wrote (pending ++ [block]) kept true (x :: xs) s' := by
  have hbreaks := breaks_of_answered hok
  have hblocks : blocksCreated (x :: xs) = block :: blocksCreated xs := by
    simp [blocksCreated, hx]
  rcases h with ⟨hb, ho⟩ | ⟨hb, ho, hall, hc⟩ | ⟨hb, ho, hc, hfail⟩
  · refine .broken ((broken_cons hbreaks).mpr hb) ?_
    rw [hblocks, List.cons_append, List.append_assoc, List.singleton_append]
    exact (ho.cons block).trans List.perm_middle.symm
  · refine .whole (fun h => hb ((broken_cons hbreaks).mp h)) ho ?_ ?_
    · intro y hy
      rcases List.mem_cons.mp hy with rfl | hy
      · exact hok
      · exact hall y hy
    · rw [hblocks]
      exact (hc.cons block).trans (List.perm_append_singleton block pending).symm
  · refine .dropped (fun h => hb ((broken_cons hbreaks).mp h)) ho ?_ ?_
    · rw [hblocks, List.length_cons, List.length_append, List.length_singleton]
      omega
    · intro _
      obtain ⟨y, hy, hf⟩ := hfail rfl
      exact ⟨y, List.mem_cons_of_mem _ hy, hf⟩

theorem Wrote.conflicted {block : DeepenBlock}
    (h : Wrote pending (block :: kept) shown xs s') (hx : x.block = none) (hbreaks : x.breaks = false)
    (hfail : x.failed = true) : Wrote (pending ++ [block]) kept true (x :: xs) s' := by
  have hblocks : blocksCreated (x :: xs) = blocksCreated xs := by simp [blocksCreated, hx]
  have hfailed : ∃ y ∈ x :: xs, y.failed = true := ⟨x, List.mem_cons_self, hfail⟩
  rcases h with ⟨hb, ho⟩ | ⟨hb, ho, -, hc⟩ | ⟨hb, ho, hc, -⟩
  · refine .broken ((broken_cons hbreaks).mpr hb) ?_
    rwa [hblocks, List.append_assoc, List.singleton_append]
  · refine .dropped (fun h => hb ((broken_cons hbreaks).mp h)) ho ?_ (fun _ => hfailed)
    rw [hblocks, hc.length_eq, List.length_append, List.length_singleton]
    omega
  · refine .dropped (fun h => hb ((broken_cons hbreaks).mp h)) ho ?_ (fun _ => hfailed)
    rw [hblocks, List.length_append, List.length_singleton]
    omega

theorem Wrote.refreshed
    (h : Wrote pending kept shown xs s') (hx : x.block = none) (hok : x.failed = false) :
    Wrote pending kept shown (x :: xs) s' := by
  have hbreaks := breaks_of_answered hok
  have hblocks : blocksCreated (x :: xs) = blocksCreated xs := by simp [blocksCreated, hx]
  rcases h with ⟨hb, ho⟩ | ⟨hb, ho, hall, hc⟩ | ⟨hb, ho, hc, hfail⟩
  · exact .broken ((broken_cons hbreaks).mpr hb) (by rwa [hblocks])
  · refine .whole (fun h => hb ((broken_cons hbreaks).mp h)) ho ?_ (by rwa [hblocks])
    intro y hy
    rcases List.mem_cons.mp hy with rfl | hy
    · exact hok
    · exact hall y hy
  · refine .dropped (fun h => hb ((broken_cons hbreaks).mp h)) ho (by rwa [hblocks]) ?_
    intro hs
    obtain ⟨y, hy, hf⟩ := hfail hs
    exact ⟨y, List.mem_cons_of_mem _ hy, hf⟩

theorem acceptBlocks_unshown (n : Nat) (h : s.rootNode = none) :
    acceptBlocks cache s n = ({ s with deepenResult := none }, []) := by
  induction n with
  | zero => rfl
  | succ n ih =>
    unfold acceptBlocks
    split
    · next hr =>
      rw [h] at hr
      cases hr
    · exact ih

/-- The loop of `acceptDeepen` over the blocks it has not tried yet. -/
theorem acceptBlocks_plays (pending kept : List DeepenBlock) (ho : s.offeredBlocks = pending ++ kept)
    (h : Plays cache (acceptBlocks cache s pending.length).1 (acceptBlocks cache s pending.length).2 xs s') :
    Wrote pending kept s.rootNode.isSome xs s' := by
  induction pending using List.reverseRec generalizing cache s xs kept with
  | nil =>
    obtain ⟨rfl, rfl⟩ := plays_nil h
    exact .whole (by simp [Broken]) rfl (fun x hx => absurd hx List.not_mem_nil) (.refl _)
  | append_singleton pending block ih =>
    have hlen : (pending ++ [block]).length = pending.length + 1 := by simp
    cases hroot : s.rootNode with
    | none =>
      rw [acceptBlocks_unshown _ hroot] at h
      obtain ⟨rfl, rfl⟩ := plays_nil h
      exact .dropped (by simp [Broken]) rfl (by simp [blocksCreated]) (fun hs => nomatch hs)
    | some =>
      cases hresult : s.deepenResult with
      | none =>
        rw [Store.offeredBlocks, hresult, Option.map_none, Option.getD_none, List.append_assoc] at ho
        exact absurd ho.symm (by simp)
      | some result =>
        have hblocks : result.contentBlocks = pending ++ block :: kept := by
          rw [Store.offeredBlocks, hresult] at ho
          simpa using ho
        have hget : result.contentBlocks[pending.length]? = some block := by simp [hblocks]
        rw [hlen] at h
        simp only [acceptBlocks, hresult, hroot, hget] at h
        obtain ⟨reply, xs, sent, rfl, hx, h⟩ := plays_call h
        cases hreq : apiCreateBlock cache result.targetNodeId block.blockType block.content with
        | error e =>
          -- it could not be asked for, which is no conflict
          rw [hreq] at hx
          have hreply : reply = .error e := hx
          subst hreply
          simp only [resume, onFailure, apiCreateBlock_error hreq, Bool.false_eq_true, if_false] at h
          obtain ⟨rfl, rfl⟩ := plays_nil h
          refine .broken ⟨_, rfl, rfl⟩ ?_
          rw [ho]
          exact .refl _
        | ok =>
          obtain ⟨d, rfl, hd⟩ := apiCreateBlock_asks hreq
          rw [hreq] at hx
          cases reply with
          | ok reply =>
            cases reply with
            | block created =>
              have hoffered : (result.contentBlocks.eraseIdx pending.length) = pending ++ kept := by
                rw [hblocks, List.eraseIdx_append_of_length_le (Nat.le_refl _), Nat.sub_self,
                  List.eraseIdx_cons_zero]
              simp only [resume] at h
              refine Wrote.created (ih kept ?_ h) (congrArg some hd) rfl
              rw [hoffered]
              simp only [Store.offeredBlocks]
              split
              · next hempty => exact (List.isEmpty_iff.mp hempty).symm
              · rfl
            | _ => cases hx
          | error e =>
            simp only [resume, onFailure] at h
            by_cases hc : e.isConflict = true
            · -- kept and passed over
              have hbreaks : Exchange.breaks (.ok (.createBlock result.targetNodeId d), .error e) = false := by
                simp [Exchange.breaks, hc]
              rw [if_pos hc] at h
              unfold refreshTree at h
              cases hp : s.currentProject with
              | none =>
                simp only [hp, afterRefresh] at h
                refine Wrote.conflicted (ih (block :: kept) ?_ h) rfl hbreaks rfl
                simpa [Store.offeredBlocks, List.append_assoc] using ho
              | some project =>
                simp only [hp] at h
                obtain ⟨reply, xs, sent', rfl, hx', h⟩ := plays_call h
                obtain ⟨-, hquiet, hbreak⟩ := refresh_exchange project s.currentBranch reply
                cases reply with
                | error =>
                  obtain ⟨rfl, rfl⟩ := plays_nil h
                  refine .broken ⟨_, rfl, hbreak⟩ ?_
                  simp only [blocksCreated, List.filterMap_cons, hquiet, List.filterMap_nil]
                  rw [ho]
                  exact .refl _
                | ok reply =>
                  obtain ⟨tree, hr⟩ := resume_refresh s (rememberReply (.ok reply) _) sent' sent (.blockConflict pending.length) hx'
                  rw [hr] at h
                  simp only [afterRefresh] at h
                  refine Wrote.conflicted (Wrote.refreshed (ih (block :: kept) ?_ h) hquiet rfl) rfl hbreaks rfl
                  simpa [Store.offeredBlocks, List.append_assoc] using ho
            · rw [if_neg hc] at h
              obtain ⟨rfl, rfl⟩ := plays_nil h
              refine .broken ⟨_, rfl, by simpa [Exchange.breaks] using hc⟩ ?_
              rw [ho]
              exact .refl _

/-- Of the blocks, what is created and what is still offered make up what was offered exactly
when the summary is refused, an answer breaks the run off, or every request succeeds; without
a tree to show, when there are none. -/
theorem acceptDeepen_once_iff
    (h : Plays cache (start cache sent s .acceptDeepen).1 (start cache sent s .acceptDeepen).2 xs s') :
    (blocksCreated xs ++ s'.offeredBlocks).Perm s.offeredBlocks ↔
      s.offeredBlocks = [] ∨ (s.rootNode.isSome = true ∧
        ((∃ x, xs.head? = some x ∧ x.failed = true) ∨ Broken xs ∨ ∀ x ∈ xs, x.failed = false)) := by
  cases hresult : s.deepenResult with
  | none =>
    simp only [start, hresult] at h
    obtain ⟨rfl, rfl⟩ := plays_nil h
    exact iff_of_true (by simp [blocksCreated, Store.offeredBlocks, hresult])
      (.inl (by simp [Store.offeredBlocks, hresult]))
  | some result =>
    have hoffered : s.offeredBlocks = result.contentBlocks := by simp [Store.offeredBlocks, hresult]
    cases hroot : s.rootNode with
    | none =>
      simp only [start, hresult, hroot] at h
      rw [acceptBlocks_unshown _ (by rfl)] at h
      obtain ⟨rfl, rfl⟩ := plays_nil h
      simp only [blocksCreated, List.filterMap_nil, Store.offeredBlocks, Option.map_none,
        Option.getD_none, List.append_nil, Option.isSome_none, Bool.false_eq_true, false_and, or_false]
      exact ⟨fun h => List.nil_perm.mp h, fun h => List.nil_perm.mpr h⟩
    | some =>
      simp only [start, hresult, hroot] at h
      obtain ⟨reply, xs, sent', rfl, hx, h⟩ := plays_call h
      cases reply with
      | error e =>
        obtain ⟨-, hkept, -, hnone⟩ := refused_ends h
        refine iff_of_true ?_ (.inr ⟨rfl, .inl ⟨_, rfl, rfl⟩⟩)
        have hquiet : ∀ request, Exchange.block (request, .error e) = none := by
          intro request
          cases request with
          | error => rfl
          | ok r => cases r <;> rfl
        rw [blocksCreated, List.filterMap_cons, hquiet]
        simp only [blocksCreated] at hnone
        rw [hnone, List.nil_append, hoffered, Store.offeredBlocks, hkept]
        exact .refl _
      | ok reply =>
        cases hreq : apiUpdateNode cache result.targetNodeId none
            [(.summary, .text result.enrichedSummary)] with
        | error e =>
          rw [hreq] at hx
          exact nomatch hx
        | ok r =>
          obtain ⟨d, rfl⟩ := apiUpdateNode_asks hreq
          rw [hreq] at hx
          cases reply with
          | node saved =>
            simp only [resume, Option.map_some, Option.getD_some] at h
            have hwrote := acceptBlocks_plays result.contentBlocks [] (by simp [Store.offeredBlocks]) h
            have hblocks : ∀ ys, blocksCreated ((.ok (.updateNode result.targetNodeId d),
                .ok (.node saved)) :: ys) = blocksCreated ys := fun _ => rfl
            have hbroken : ∀ ys, Broken ((.ok (.updateNode result.targetNodeId d),
                .ok (.node saved)) :: ys) ↔ Broken ys := fun _ => broken_cons rfl
            rw [hblocks, hoffered]
            rcases hwrote with ⟨hb, hperm⟩ | ⟨hb, ho, hall, hperm⟩ | ⟨hb, ho, hlt, hfail⟩
            · rw [List.append_nil] at hperm
              exact iff_of_true hperm (.inr ⟨rfl, .inr (.inl ((hbroken xs).mpr hb))⟩)
            · rw [ho, List.append_nil]
              refine iff_of_true hperm (.inr ⟨rfl, .inr (.inr ?_)⟩)
              intro x hx
              rcases List.mem_cons.mp hx with rfl | hx
              · rfl
              · exact hall x hx
            · -- a block that met a conflict is dismissed
              obtain ⟨x, hmem, hf⟩ := hfail rfl
              rw [ho, List.append_nil]
              refine iff_of_false (fun hperm => absurd hperm.length_eq (Nat.ne_of_lt hlt)) ?_
              rintro (hnil | ⟨-, ⟨y, hy, hyf⟩ | hb' | hall⟩)
              · rw [hnil] at hlt
                exact Nat.not_lt_zero _ hlt
              · cases hy
                exact Bool.false_ne_true hyf
              · exact hb ((hbroken xs).mp hb')
              · exact absurd (hall x (List.mem_cons_of_mem _ hmem)) (by simp [hf])
          | _ => cases hx

/-- **Suggestions are offered or created, and not both**, of the suggestions and of the blocks. -/
theorem offered_once_iff (cache : Cache) (sent : Nat) (s s' : Store) (xs : List Exchange) :
    (∀ confirmed, Plays cache (acceptAll confirmed cache sent s).1 (acceptAll confirmed cache sent s).2 xs s' →
      ((suggestionsCreated xs ++ s'.offeredSuggestions).Perm s.offeredSuggestions ↔
        s.offeredSuggestions = [] ∨ (∃ x, xs.head? = some x ∧ x.failed = true) ∨
          ∀ x ∈ xs, x.failed = false)) ∧
    (Plays cache (start cache sent s .acceptDeepen).1 (start cache sent s .acceptDeepen).2 xs s' →
      ((blocksCreated xs ++ s'.offeredBlocks).Perm s.offeredBlocks ↔
        s.offeredBlocks = [] ∨ (s.rootNode.isSome = true ∧
          ((∃ x, xs.head? = some x ∧ x.failed = true) ∨ Broken xs ∨ ∀ x ∈ xs, x.failed = false)))) :=
  ⟨fun _ => acceptAll_once_iff, acceptDeepen_once_iff⟩

end

/-! A root with two suggestions and two blocks -/

namespace Offer

def project : Canon.Project := ⟨"p", some "r", fun _ => .null, 1⟩

def saved (id : String) (revision : Int) : SavedNode :=
  ⟨⟨id, "p", none, fun _ => .null, "human", "human", 1⟩, some revision, some ("r", revision)⟩

def tree : GNode := .node ⟨"r", "p", none, fun _ => .null, "human", "human", [], none, none, 1⟩ []

def cache : Cache := rememberTree tree (rememberProject project .empty)

def block (n : String) : DeepenBlock := ⟨"paragraph", .text n⟩

def store : Store :=
  { Store.initial with
    currentProject := some project, rootNode := some ⟨tree, .subtree "r", 0⟩,
    expandSuggestions := some [⟨"one", "", "idea"⟩, ⟨"two", "", "idea"⟩], expandTargetNodeId := some "r",
    deepenResult := some ⟨"summary", [block "a", block "b"], "r"⟩ }

def conflict : Except ApiError Reply := .error (.refused (.revisionConflict "node" "r" 1 (some 2)))

def written (id : String) : Except ApiError Reply :=
  .ok (.block ⟨id, "r", "paragraph", .null, 0, "human", 0, 1⟩)

theorem suggestionsSucceed : ∃ xs s',
    Plays cache (acceptAll true cache 0 store).1 (acceptAll true cache 0 store).2 xs s' ∧
      ∀ x ∈ xs, x.failed = false :=
  ⟨_, _, .next 0 (.ok (.node (saved "n1" 2))) rfl (.next 0 (.ok (.node (saved "n2" 3))) rfl
    (.next 0 (.ok (.tree tree)) rfl (.ended _ _))), by simp [Exchange.failed]⟩

theorem blocksSucceed : ∃ xs s',
    Plays cache (start cache 0 store .acceptDeepen).1 (start cache 0 store .acceptDeepen).2 xs s' ∧
      ∀ x ∈ xs, x.failed = false :=
  ⟨_, _, .next 0 (.ok (.node (saved "r" 2))) rfl (.next 0 (Offer.written "b1") rfl
    (.next 0 (Offer.written "b2") rfl (.ended _ _))), by simp [Exchange.failed, Offer.written]⟩

end Offer

open Offer in
/-- Where every request succeeds, everything is created and nothing is offered. -/
theorem offered_once_iff_created :
    (∃ xs s', Plays cache (acceptAll true cache 0 store).1 (acceptAll true cache 0 store).2 xs s' ∧
      (suggestionsCreated xs ++ s'.offeredSuggestions).Perm store.offeredSuggestions) ∧
    ∃ xs s', Plays cache (start cache 0 store .acceptDeepen).1 (start cache 0 store .acceptDeepen).2 xs s' ∧
      (blocksCreated xs ++ s'.offeredBlocks).Perm store.offeredBlocks := by
  constructor
  · obtain ⟨xs, s', h, hall⟩ := suggestionsSucceed
    exact ⟨xs, s', h, ((offered_once_iff cache 0 store s' xs).1 true h).mpr (.inr (.inr hall))⟩
  · obtain ⟨xs, s', h, hall⟩ := blocksSucceed
    exact ⟨xs, s', h, ((offered_once_iff cache 0 store s' xs).2 h).mpr (.inr ⟨rfl, .inr (.inr hall)⟩)⟩

open Offer in
/-- A conflict on the second suggestion leaves both offered, the first of them created; a
conflict on the second block leaves none offered, the first of them created. -/
theorem conflict_loses :
    (∃ xs s', Plays cache (acceptAll true cache 0 store).1 (acceptAll true cache 0 store).2 xs s' ∧
      suggestionsCreated xs = [⟨"one", "", "idea"⟩] ∧
      s'.offeredSuggestions = [⟨"one", "", "idea"⟩, ⟨"two", "", "idea"⟩] ∧
      ¬ (suggestionsCreated xs ++ s'.offeredSuggestions).Perm store.offeredSuggestions) ∧
    ∃ xs s', Plays cache (start cache 0 store .acceptDeepen).1 (start cache 0 store .acceptDeepen).2 xs s' ∧
      blocksCreated xs = [block "a"] ∧ s'.offeredBlocks = [] ∧
      ¬ (blocksCreated xs ++ s'.offeredBlocks).Perm store.offeredBlocks := by
  constructor
  · refine ⟨_, _, .next 0 (.ok (.node (saved "n1" 2))) rfl (.next 0 conflict trivial
      (.next 0 (.ok (.tree tree)) rfl (.ended _ _))), rfl, rfl, ?_⟩
    exact fun h => absurd h.length_eq (by decide)
  · refine ⟨_, _, .next 0 (.ok (.node (saved "r" 2))) rfl (.next 0 conflict trivial
      (.next 0 (.ok (.tree tree)) rfl (.next 0 (Offer.written "b1") rfl (.ended _ _)))), rfl, rfl, ?_⟩
    exact fun h => absurd h.length_eq (by decide)

end GrowthMap.Client
