import GrowthMap.Client.Actions
import GrowthMap.Client.Server
import GrowthMap.Lib.Runs

/- The client and its server.

   The actions that wait are the calls in flight. The server answers a call on the graph as it
   then is, and the answer arrives later: answers arrive in any order, and between two awaits
   of an action any other one may run. What an observer of the client notes beside it: the
   project that was selected last, the nodes whose creation was acknowledged, and the nodes
   whose deletion was. -/
namespace GrowthMap.Client

open Canon (Graph)
open Runs

/-- An action that waits. -/
structure Pending where
  /-- none for a request that could not be made -/
  request : Option HttpRequest
  frame : Frame
  reply : Option (Except ApiError Reply)

structure World where
  server : Graph
  cache : Cache
  store : Store
  pending : List Pending
  latest : Option String
  created : List String
  removed : List String

def World.started (g : Graph) : World := ⟨g, .empty, .initial, [], none, [], []⟩

inductive Move where
  | act (a : Action)
  /-- `expandNode` has its suggestions -/
  | expanded (nodeId : String) (suggestions : List Suggestion)
  /-- `deepenNode` has its result -/
  | deepened (result : DeepenResult)
  | serve (i : Nat) (uuid : Nat → Nat → String) (now : Int)
  | deliver (i : Nat)

def Call.pending (c : Call) : Pending :=
  match c.request with
  | .ok r => ⟨some r, c.frame, none⟩
  | .error e => ⟨none, c.frame, some (.error e)⟩

def Frame.acknowledges : Frame → Except ApiError Reply → List String
  | .added .., .ok (.node saved) | .accepted .., .ok (.node saved) | .acceptedOne .., .ok (.node saved) => [saved.node.id]
  | _, _ => []

/-- The nodes a reply acknowledges the deletion of, as the tree showed them. -/
def Frame.removes : Frame → Except ApiError Reply → List String
  | .deleted _ shown nodeId, .ok .done => (shown.tree.under (hasId nodeId)).map NodeView.id
  | _, _ => []

def rememberReply (reply : Except ApiError Reply) (cache : Cache) : Cache :=
  match reply with
  | .ok r => remember r cache
  | .error _ => cache

def World.act (w : World) (a : Action) : World :=
  let (store, calls) := start w.cache w.created.length w.store a
  { w with
    store
    pending := w.pending ++ calls.map Call.pending
    latest := match a with
      | .selectProject project => some project.id
      | _ => w.latest }

def World.answer (w : World) (i : Nat) (uuid : Nat → Nat → String) (now : Int) : World :=
  match w.pending[i]? with
  | some ⟨some r, frame, none⟩ =>
    let (server, reply) := Client.serve uuid now r w.server
    { w with server, pending := w.pending.set i ⟨some r, frame, some (reply.mapError .refused)⟩ }
  | _ => w

def World.deliver (w : World) (i : Nat) : World :=
  match w.pending[i]? with
  | some ⟨_, frame, some reply⟩ =>
    let created := w.created ++ frame.acknowledges reply
    let cache := rememberReply reply w.cache
    let (store, calls) := resume cache created.length w.store frame reply
    { w with
      cache
      store
      pending := w.pending.eraseIdx i ++ calls.map Call.pending
      created
      removed := w.removed ++ frame.removes reply }
  | _ => w

def World.step (w : World) : Move → World
  | .act a => w.act a
  | .expanded nodeId suggestions =>
    { w with store := { w.store with
        expandSuggestions := some suggestions, expandTargetNodeId := some nodeId, deepenResult := none } }
  | .deepened result => { w with store := { w.store with deepenResult := some result, expandSuggestions := none } }
  | .serve i uuid now => w.answer i uuid now
  | .deliver i => w.deliver i

namespace Demo

def planted (project root : String) (g : Graph) : Graph :=
  match Canon.createProject (fun _ => g) (fun n => if n = 0 then project else root) none ⟨project, "", "", .json "\x7b\x7d"⟩ g with
  | .ok g => g
  | .error _ => g

def garden : Graph := planted "p2" "r2" (planted "p1" "r1" .empty)

def row (id : String) : Canon.Project := (garden.projects.get id).getD ⟨id, none, fun _ => .null, 0⟩

def uuid (n k : Nat) : String := "u" ++ toString n ++ "-" ++ toString k

end Demo

end GrowthMap.Client
