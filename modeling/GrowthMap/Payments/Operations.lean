import GrowthMap.Payments.Reachable

/- The operations of the service, and what they keep.

   Every operation is a composition of transactions, so what transactions keep operations
   keep (`KeptByTransactions.operation`). Whop applications have an exception handler
   that goes on after a transaction, and are asked for separately. -/
namespace GrowthMap.Payments

open Relational Transaction

variable {cfg : Config} {I : World → Prop}

/-! The operations -/

/-- The operations of the service that write, with their clock readings and what the
Authority, the reconciler or the caller brings. -/
inductive Operation where
  | tx (clk : Nat → Time) (t : Tx)
  | claimOutbox (clk : Nat → Time) (worker : String) (leaseSeconds : Int) (orderId : Option String)
  | deliverClaimedOutbox (clk : Nat → Nat → Time) (ans : Nat → Answer) (row : Entitlement) (worker : String)
  | failOutbox (clk : Nat → Time) (row : Entitlement) (worker : String) (error : Err) (maxAttempts : Nat)
  | deliverEntitlement (clk clk' : Nat → Time) (clks : Nat → Nat → Time) (ans : Nat → Answer)
      (worker oid : String)
  | claimRevocation (clk : Nat → Time) (worker : String) (leaseSeconds : Int) (orderId : Option String)
  | deliverClaimedRevocation (clk : Nat → Time) (ans : RevocationAnswers) (row : Revocation) (worker : String)
  | deliverRevocation (clk clk' clk'' : Nat → Time) (ans : RevocationAnswers) (worker oid : String)
  | reconcileIntent (clk clk' : Nat → Time) (iid : String) (reconcile : Intent → Option ReconcilerEvidence)
      (actor : String)
  | recoverDurableSettlements (clks : Nat → Nat → Time)
  | applyWhopEvent (clk : Nat → Time) (eventId : String) (maxAttempts : Int)
  | receiveWhopEvent (clk clk' : Nat → Time) (ev : WhopEvent) (rawDigest : String) (maxAttempts : Int)

def World.after (w : World) (cfg : Config) : Operation → World
  | .tx clk t => (transaction cfg (bodyOf cfg clk t) w).2
  | .claimOutbox clk worker leaseSeconds orderId => (claimOutboxRow cfg clk worker leaseSeconds orderId w).2
  | .deliverClaimedOutbox clk ans row worker => (deliverClaimedOutbox cfg clk ans row worker w).2
  | .failOutbox clk row worker error maxAttempts => (failOutbox cfg clk row worker error maxAttempts w).2
  | .deliverEntitlement clk clk' clks ans worker oid =>
    (deliverEntitlement cfg clk clk' clks ans worker oid w).2
  | .claimRevocation clk worker leaseSeconds orderId =>
    (claimRevocationRow cfg clk worker leaseSeconds orderId w).2
  | .deliverClaimedRevocation clk ans row worker => (deliverClaimedRevocation cfg clk ans row worker w).2
  | .deliverRevocation clk clk' clk'' ans worker oid =>
    (deliverRevocation cfg clk clk' clk'' ans worker oid w).2
  | .reconcileIntent clk clk' iid reconcile actor => (reconcileIntent cfg clk clk' iid reconcile actor w).2
  | .recoverDurableSettlements clks => (recoverDurableSettlements cfg clks w).2
  | .applyWhopEvent clk eventId maxAttempts => (applyWhopEvent cfg clk eventId maxAttempts w).2
  | .receiveWhopEvent clk clk' ev rawDigest maxAttempts =>
    (receiveWhopEvent cfg clk clk' ev rawDigest maxAttempts w).2

/-! What transactions keep, operations keep -/

/-- The two kinds of program the operations are made of, Whop applications apart. -/
structure KeptByTransactions (cfg : Config) (I : World → Prop) : Prop where
  transaction : ∀ {α : Type} (body : Body α), Prog.Keeps I (transaction cfg body)
  failOutbox : ∀ clk row worker error maxAttempts,
    Prog.Keeps I (failOutbox cfg clk row worker error maxAttempts)

theorem keeps_current : Prog.Keeps I current := fun _ h => h

theorem keeps_ofExcept {α : Type} (r : Except Err α) : Prog.Keeps I (ofExcept r) := by
  cases r with
  | ok a => exact Prog.keeps_pure a
  | error e => exact Prog.keeps_throw e

theorem keeps_attempt {α : Type} {d : Delivery} {p : Py α} {next : α → Delivery} (hp : Prog.Keeps I p) :
    Prog.Keeps I (d.attempt p next) := by
  intro w hw
  rw [attempt_world]
  exact hp w hw

theorem KeptByTransactions.requeueUnread (h : KeptByTransactions cfg I) (clk : Nat → Time) (d : Delivery) :
    Prog.Keeps I (requeueUnread cfg clk d) := by
  intro w hw
  rw [requeueUnread_world]
  exact h.transaction _ w hw

theorem KeptByTransactions.deliverStep (h : KeptByTransactions cfg I) (clk : Nat → Time) (ans : Answer)
    (d : Delivery) : Prog.Keeps I (deliverStep cfg clk ans d) := by
  unfold Payments.deliverStep
  cases d.pc with
  | start => exact keeps_attempt (h.transaction _)
  | checked => exact Prog.keeps_pure _
  | handshaken => exact keeps_attempt (h.transaction _)
  | prepared => exact keeps_attempt (h.transaction _)
  | crossing => exact Prog.keeps_pure _
  | called => exact Prog.keeps_pure _
  | rechecked => cases ans.readback <;> exact Prog.keeps_pure _
  | unread => exact keeps_attempt (h.requeueUnread clk d)
  | read a =>
    simp only
    cases verifyAcknowledgement cfg ans d a <;> exact Prog.keeps_pure _
  | verified => exact keeps_attempt (h.transaction _)
  | done => exact Prog.keeps_pure _

theorem KeptByTransactions.deliverLoop (h : KeptByTransactions cfg I) (clk : Nat → Nat → Time)
    (ans : Nat → Answer) (n : Nat) (d : Delivery) : Prog.Keeps I (deliverLoop cfg clk ans n d) := by
  induction n generalizing d with
  | zero => exact Prog.keeps_pure d
  | succ n ih => exact Prog.keeps_bind (h.deliverStep _ _ d) ih

theorem KeptByTransactions.deliverClaimedOutbox (h : KeptByTransactions cfg I) (clk : Nat → Nat → Time)
    (ans : Nat → Answer) (row : Entitlement) (worker : String) :
    Prog.Keeps I (deliverClaimedOutbox cfg clk ans row worker) := by
  refine Prog.keeps_bind (h.deliverLoop clk ans 10 _) ?_
  intro d
  cases d.pc with
  | done r => exact keeps_ofExcept r
  | _ => exact Prog.keeps_throw _

theorem KeptByTransactions.claimOutboxRow (h : KeptByTransactions cfg I) (clk : Nat → Time) (worker : String)
    (leaseSeconds : Int) (orderId : Option String) :
    Prog.Keeps I (claimOutboxRow cfg clk worker leaseSeconds orderId) := by
  refine Prog.keeps_bind (h.transaction _) ?_
  intro r
  cases r with
  | none => exact Prog.keeps_pure none
  | some => exact Prog.keeps_bind keeps_current (fun _ => Prog.keeps_pure _)

theorem KeptByTransactions.deliverEntitlement (h : KeptByTransactions cfg I) (clk clk' : Nat → Time)
    (clks : Nat → Nat → Time) (ans : Nat → Answer) (worker oid : String) :
    Prog.Keeps I (deliverEntitlement cfg clk clk' clks ans worker oid) := by
  refine Prog.keeps_bind (h.claimOutboxRow clk worker 30 (some oid)) ?_
  intro claimed
  cases claimed with
  | none =>
    refine Prog.keeps_bind keeps_current ?_
    intro l
    cases l.entitlements.get oid with
    | none => exact Prog.keeps_throw _
    | some e =>
      simp only
      split
      · exact Prog.keeps_throw _
      · cases e.identity with
        | none => exact Prog.keeps_throw _
        | some =>
          simp only
          split
          · exact Prog.keeps_throw _
          · split
            · exact Prog.keeps_throw _
            · exact keeps_ofExcept _
  | some row =>
    refine Prog.keeps_tryCatch (h.deliverClaimedOutbox clks ans row worker) ?_
    intro e
    split
    · exact Prog.keeps_throw _
    · exact Prog.keeps_bind (h.failOutbox _ _ _ _ _) (fun _ => Prog.keeps_throw _)

theorem KeptByTransactions.deliverClaimedRevocation (h : KeptByTransactions cfg I) (clk : Nat → Time)
    (ans : RevocationAnswers) (row : Revocation) (worker : String) :
    Prog.Keeps I (deliverClaimedRevocation cfg clk ans row worker) := by
  -- an `if … then raise` before the rest of the program
  have hguard : ∀ {c : Prop} [Decidable c] {e : Err} {q : Py RevocationAck}, Prog.Keeps I q →
      Prog.Keeps I (if c then throw e else q : Py RevocationAck) := by
    intro c _ e q hq
    split
    · exact Prog.keeps_throw e
    · exact hq
  refine Prog.keeps_bind (keeps_ofExcept _) (fun _ => ?_)
  refine hguard ?_
  cases ans.response with
  | none => exact Prog.keeps_throw _
  | some =>
    refine Prog.keeps_bind (keeps_ofExcept _) (fun _ => ?_)
    cases ans.readback with
    | none => exact Prog.keeps_throw _
    | some =>
      refine Prog.keeps_bind (keeps_ofExcept _) (fun _ => ?_)
      refine Prog.keeps_bind (keeps_ofExcept _) (fun receipt => ?_)
      exact hguard (h.transaction _)

theorem KeptByTransactions.claimRevocationRow (h : KeptByTransactions cfg I) (clk : Nat → Time) (worker : String)
    (leaseSeconds : Int) (orderId : Option String) :
    Prog.Keeps I (claimRevocationRow cfg clk worker leaseSeconds orderId) := by
  refine Prog.keeps_bind (h.transaction _) ?_
  intro r
  cases r with
  | none => exact Prog.keeps_pure none
  | some => exact Prog.keeps_bind keeps_current (fun _ => Prog.keeps_pure _)

theorem KeptByTransactions.deliverRevocation (h : KeptByTransactions cfg I) (clk clk' clk'' : Nat → Time)
    (ans : RevocationAnswers) (worker oid : String) :
    Prog.Keeps I (deliverRevocation cfg clk clk' clk'' ans worker oid) := by
  refine Prog.keeps_bind (h.claimRevocationRow clk worker 30 (some oid)) ?_
  intro claimed
  cases claimed with
  | none =>
    refine Prog.keeps_bind keeps_current ?_
    intro l
    split
    · exact Prog.keeps_throw _
    · split
      · split
        · exact Prog.keeps_throw _
        · split
          · exact Prog.keeps_throw _
          · exact keeps_ofExcept _
      · exact Prog.keeps_throw _
  | some row =>
    refine Prog.keeps_tryCatch (h.deliverClaimedRevocation clk' ans row worker) ?_
    intro e
    exact Prog.keeps_bind (h.transaction _) (fun _ => Prog.keeps_throw _)

theorem KeptByTransactions.reconcileIntent (h : KeptByTransactions cfg I) (clk clk' : Nat → Time) (iid : String)
    (reconcile : Intent → Option ReconcilerEvidence) (actor : String) :
    Prog.Keeps I (reconcileIntent cfg clk clk' iid reconcile actor) := by
  refine Prog.keeps_bind (h.transaction _) ?_
  intro found
  cases found with
  | none => exact Prog.keeps_throw _
  | some i =>
    simp only
    split
    · exact Prog.keeps_throw _
    · cases reconcile i with
      | none => exact Prog.keeps_throw _
      | some =>
        simp only
        split
        · exact Prog.keeps_throw _
        · split
          · refine Prog.keeps_bind (h.transaction _) (fun _ => ?_)
            exact Prog.keeps_bind (h.transaction _) (fun _ => Prog.keeps_pure _)
          · split
            · exact Prog.keeps_throw _
            · exact Prog.keeps_bind (h.transaction _) (fun _ => Prog.keeps_pure _)

theorem KeptByTransactions.finalizeAll (h : KeptByTransactions cfg I) (clks : Nat → Nat → Time)
    (ids : List String) : Prog.Keeps I (finalizeAll cfg clks ids) := by
  induction ids with
  | nil => exact Prog.keeps_pure ()
  | cons iid rest ih => exact Prog.keeps_bind (h.transaction _) (fun _ => ih)

theorem KeptByTransactions.recoverDurableSettlements (h : KeptByTransactions cfg I)
    (clks : Nat → Nat → Time) : Prog.Keeps I (recoverDurableSettlements cfg clks) :=
  Prog.keeps_bind keeps_current (fun _ => h.finalizeAll clks _)

/-- Whop applications apart. -/
theorem KeptByTransactions.operation (h : KeptByTransactions cfg I) {w : World} (hw : I w) (op : Operation)
    (happly : ∀ clk eventId maxAttempts, op = .applyWhopEvent clk eventId maxAttempts →
      I (w.after cfg op))
    (hreceive : ∀ clk clk' ev rawDigest maxAttempts,
      op = .receiveWhopEvent clk clk' ev rawDigest maxAttempts → I (w.after cfg op)) :
    I (w.after cfg op) := by
  cases op with
  | tx => exact h.transaction _ w hw
  | claimOutbox clk worker leaseSeconds orderId => exact h.claimOutboxRow clk worker leaseSeconds orderId w hw
  | deliverClaimedOutbox clk ans row worker => exact h.deliverClaimedOutbox clk ans row worker w hw
  | failOutbox clk row worker error maxAttempts => exact h.failOutbox clk row worker error maxAttempts w hw
  | deliverEntitlement clk clk' clks ans worker oid =>
    exact h.deliverEntitlement clk clk' clks ans worker oid w hw
  | claimRevocation clk worker leaseSeconds orderId =>
    exact h.claimRevocationRow clk worker leaseSeconds orderId w hw
  | deliverClaimedRevocation clk ans row worker => exact h.deliverClaimedRevocation clk ans row worker w hw
  | deliverRevocation clk clk' clk'' ans worker oid =>
    exact h.deliverRevocation clk clk' clk'' ans worker oid w hw
  | reconcileIntent clk clk' iid reconcile actor => exact h.reconcileIntent clk clk' iid reconcile actor w hw
  | recoverDurableSettlements clks => exact h.recoverDurableSettlements clks w hw
  | applyWhopEvent clk eventId maxAttempts => exact happly clk eventId maxAttempts rfl
  | receiveWhopEvent clk clk' ev rawDigest maxAttempts => exact hreceive clk clk' ev rawDigest maxAttempts rfl

end GrowthMap.Payments
