import GrowthMap.Payments.Later

/- Runs of the whole system.

   `SysInv` joins the invariant of the ledger with what every running delivery may
   rely on: the row it copied is still there in a later version, and once it is past
   the authorization the stored crossing is marked. One event is a sequence of moves
   (`step_moves`), keeps `SysInv` (`step_inv`), and so every reachable state has it
   (`reachable_inv`). -/
namespace GrowthMap.Payments

open Relational Transaction Runs
open Fallible (bind_ok)

variable {cfg : Config}

/-- The delivery has passed its authorization, or reads back a crossing of its copy. -/
def Pc.pastCrossing : Pc → Bool
  | .crossing | .called | .rechecked | .unread | .read _ | .verified _ => true
  | .start | .checked | .handshaken | .prepared | .done _ => false

def Delivery.Verified (cfg : Config) (d : Delivery) (a : EntitlementAck) : Prop :=
  validateEntitlementAck cfg a d.row.payload cfg.identity (payloadDigest cfg d.row.payload) = .ok a

/-- What a delivery knows of the stored row. -/
structure Delivery.Ok (cfg : Config) (l : Ledger) (d : Delivery) : Prop where
  stored : ∃ e, l.entitlements.get d.row.payload.orderId = some e ∧ e.payload = d.row.payload ∧
    d.row.fencingVersion ≤ e.fencingVersion ∧ (d.row.phase.crossed = true → e.phase.crossed = true)
  past : d.pc.pastCrossing = true → d.row.phase.crossed = true
  verified : ∀ a, d.pc = .verified a → d.Verified cfg a

structure SysInv (cfg : Config) (s : Sys) : Prop where
  core : Inv cfg s.ledger.core
  deliveries : ∀ tid d, s.deliveries tid = some d → d.Ok cfg s.ledger

variable {a : EntitlementAck} {d : Delivery} {l m : Ledger} {s : Sys}

theorem validateEntitlementAck_license {b : EntitlementAck} {p : EntitlementPayload}
    {identity : Identity} {digest : String} (h : validateEntitlementAck cfg a p identity digest = .ok b) :
    a.licenseId ≠ "" := by
  intro hempty
  unfold validateEntitlementAck at h
  rw [if_pos] at h
  · cases h
  · rw [hempty]
    right; right; right; right; right; left
    decide

theorem verifyAcknowledgement_verified {ans : Answer}
    (h : verifyAcknowledgement cfg ans d a = .ok ()) : d.Verified cfg a := by
  unfold verifyAcknowledgement at h
  obtain ⟨-, -, h⟩ := bind_ok h
  obtain ⟨-, -, h⟩ := bind_ok h
  obtain ⟨b, hb, -⟩ := bind_ok h
  have hsame : b = a := by
    unfold validateEntitlementAck at hb
    split at hb
    · cases hb
    · split at hb
      · cases hb
      · split at hb
        · cases hb
        · cases hb
          rfl
  rw [hsame] at hb
  exact hb

/-- The orders whose state an event may write from the state of their intent. -/
def settling (s : Sys) (e : Event) : String → Prop :=
  match e.act with
  | .tx t => settles e.clk s.ledger t
  | _ => fun _ => False

theorem deliverBody_moves {clk : Nat → Time} {b : Body Unit}
    {P : String → Prop} (hinv : Inv cfg l.core) (hok : d.Ok cfg l) (hb : deliverBody cfg clk d = some b)
    (h : (b l).committed = some m) : Moves cfg P l.core m.core := by
  unfold deliverBody at hb
  split at hb
  · cases hb
    rw [revalidateLease_moves] at h
    cases h
  · cases hb
    exact prepareCrossing_moves hinv h
  · cases hb
    exact authorizeCrossing_moves hinv h
  · cases hb
    exact requeueReconciliationFailure_moves hinv h
  · rename_i a hpc
    cases hb
    rw [Verdict.void_committed] at h
    refine commitDelivery_moves hinv (validateEntitlementAck_license (hok.verified a hpc)) ?_ h
    intro e he
    obtain ⟨x, hx, hpay, -⟩ := hok.stored
    rw [he] at hx
    cases hx
    exact hpay
  · cases hb

/-- What an event commits is reached by moves. -/
theorem commits_moves {e : Event} (h : SysInv cfg s) (hc : Commits cfg s e m) :
    Moves cfg (settling s e) s.ledger.core m.core := by
  cases hc with
  | body b m hb hm =>
    unfold actBody at hb
    unfold settling
    split at hb
    · rename_i t ha
      cases hb
      simp only [ha]
      exact bodyOf_moves h.core t hm
    · cases hb
      exact failBody_moves h.core hm
    · rename_i tid ans ha
      obtain ⟨d, hd, hb⟩ := Option.bind_eq_some_iff.mp hb
      exact deliverBody_moves h.core (h.deliveries tid d hd) hb hm
    · cases hb
  | whopApplied eventId maxAttempts ev m ha hev hm =>
    rw [whopAttempt_ok hm]
    exact whopAttempt_moves h.core
  | whopFailed eventId maxAttempts ev x l m ha hl hm =>
    rw [whopFailed_core hm]
    rcases hl with rfl | ⟨-, rfl⟩
    · exact .refl
    · exact whopAttempt_moves h.core

theorem step_moves (h : SysInv cfg s) (e : Event) :
    Moves cfg (settling s e) s.ledger.core (step cfg s e).ledger.core := by
  rcases step_ledger cfg s e with heq | ⟨m, hm, heq⟩
  · rw [heq]
  · rw [heq, bumpSequence_core]
    exact commits_moves h hm

/-! One step of a delivery -/

/-- A step that is not the authorization: the copy stays as it is. -/
structure Delivery.Stays (cfg : Config) (d d' : Delivery) : Prop where
  worker : d'.worker = d.worker
  row : d'.row = d.row
  past : d'.pc.pastCrossing = true → d.pc.pastCrossing = true ∨ d.row.phase = .readbackOnly
  crossing : d'.pc = .crossing → d.row.phase = .readbackOnly
  verified : ∀ a, d'.pc = .verified a → d.Verified cfg a

/-- The authorization: a committed transaction, after which the copy says so. -/
structure Delivery.Authorizes (cfg : Config) (d d' : Delivery) (w w' : World) : Prop where
  pc : d.pc = .prepared
  next : d' = { d with row := { d.row with phase := .crossingAuthorized }, pc := .crossing }
  committed : ∃ m, (authorizeCrossing d.row d.worker w.conn.committed).committed = some m ∧
    w' = w.published cfg m

theorem Delivery.stays_done (d : Delivery) (r : Except Err EntitlementAck) :
    d.Stays cfg { d with pc := .done r } where
  worker := rfl
  row := rfl
  past h := by cases h
  crossing h := by cases h
  verified a h := by cases h

theorem attempt_stays {α : Type} (d : Delivery) (p : Py α) (next : α → Delivery) (w : World)
    (hnext : ∀ a, d.Stays cfg (next a)) :
    ∃ d', (d.attempt p next w).1 = .ok d' ∧ d.Stays cfg d' := by
  unfold Delivery.attempt
  cases h : p w with
  | mk r =>
    cases r with
    | ok a => exact ⟨next a, rfl, hnext a⟩
    | error e => exact ⟨_, rfl, d.stays_done (.error e)⟩

theorem after_stays (d : Delivery) (r : Except Err Unit) (pc : Pc) (h : d.Stays cfg { d with pc := pc }) :
    d.Stays cfg (d.after r pc) := by
  unfold Delivery.after
  cases r with
  | ok => exact h
  | error e => exact d.stays_done (.error e)

/-- A delivery never raises: it goes on, ends, or is authorized. -/
theorem deliverStep_cases (cfg : Config) (clk : Nat → Time) (ans : Answer) (d : Delivery) (w : World)
    (hw : w.conn.working = none) :
    ∃ d', (deliverStep cfg clk ans d w).1 = .ok d' ∧
      (d.Stays cfg d' ∨ d.Authorizes cfg d' w (deliverStep cfg clk ans d w).2) := by
  -- a next program counter that is not past the crossing changes nothing the copy tells
  have hplain : ∀ pc : Pc, pc.pastCrossing = false → d.Stays cfg { d with pc := pc } := by
    intro pc hpc
    refine ⟨rfl, rfl, ?_, ?_, ?_⟩
    · intro h
      rw [show ({ d with pc := pc } : Delivery).pc = pc from rfl, hpc] at h
      cases h
    · intro h
      have : pc = .crossing := h
      rw [this] at hpc
      cases hpc
    · intro a h
      have : pc = .verified a := h
      rw [this] at hpc
      cases hpc
  have hpast : ∀ pc : Pc, d.pc.pastCrossing = true → pc ≠ .crossing → (∀ a, pc ≠ .verified a) →
      d.Stays cfg { d with pc := pc } := by
    intro pc h hc hv
    exact ⟨rfl, rfl, fun _ => .inl h, fun h => absurd h hc, fun a h => absurd h (hv a)⟩
  unfold deliverStep
  cases hpc : d.pc with
  | start =>
    obtain ⟨d', hd', hs⟩ := attempt_stays d (transaction cfg (revalidateLease d.row d.worker))
      (fun _ => { d with pc := .checked }) w (fun _ => hplain _ rfl)
    exact ⟨d', hd', .inl hs⟩
  | checked =>
    refine ⟨_, rfl, .inl (after_stays d _ _ ?_)⟩
    by_cases hphase : d.row.phase = .readbackOnly
    · rw [if_pos hphase]
      exact ⟨rfl, rfl, fun _ => .inr hphase, fun _ => hphase, fun a h => by cases h⟩
    · rw [if_neg hphase]
      exact hplain _ rfl
  | handshaken =>
    obtain ⟨d', hd', hs⟩ := attempt_stays d (transaction cfg (prepareCrossing d.row d.worker))
      (fun _ => { d with pc := .prepared }) w (fun _ => hplain _ rfl)
    exact ⟨d', hd', .inl hs⟩
  | prepared =>
    simp only [attempt_world]
    unfold Delivery.attempt
    have hended := transaction_ended cfg (authorizeCrossing d.row d.worker) w hw
    cases hr : transaction cfg (authorizeCrossing d.row d.worker) w with
    | mk r =>
      rw [hr] at hended
      cases r with
      | error e => exact ⟨_, rfl, .inl (d.stays_done (.error e))⟩
      | ok u =>
        refine ⟨_, rfl, .inr ⟨hpc, rfl, ?_⟩⟩
        generalize hres : (Except.ok u : Except Err Unit) = res at hended
        simp only at hended
        cases hended with
        | refused => cases hres
        | left a ht h =>
          exfalso
          unfold authorizeCrossing at h
          split at h
          · cases h
          · split at h
            · cases h
            · unfold orRaise at h
              split at h <;> cases h
        | raised => cases hres
        | published m r ht h => exact ⟨m, ending_committed h, rfl⟩
        | lost => cases hres
  | crossing =>
    refine ⟨_, rfl, .inl (after_stays d _ _ (hpast _ (by rw [hpc]; rfl) (by simp) (by simp)))⟩
  | called =>
    refine ⟨_, rfl, .inl (after_stays d _ _ (hpast _ (by rw [hpc]; rfl) (by simp) (by simp)))⟩
  | rechecked =>
    simp only
    cases ans.readback with
    | raised => exact ⟨_, rfl, .inl (hpast _ (by rw [hpc]; rfl) (by simp) (by simp))⟩
    | malformed => exact ⟨_, rfl, .inl (d.stays_done _)⟩
    | ack => exact ⟨_, rfl, .inl (hpast _ (by rw [hpc]; rfl) (by simp) (by simp))⟩
  | unread =>
    obtain ⟨d', hd', hs⟩ := attempt_stays d (requeueUnread cfg clk d)
      (fun a => { d with pc := .done (.ok a) }) w (fun a => d.stays_done (.ok a))
    exact ⟨d', hd', .inl hs⟩
  | read a =>
    simp only
    cases hv : verifyAcknowledgement cfg ans d a with
    | error => exact ⟨_, rfl, .inl (d.stays_done _)⟩
    | ok =>
      refine ⟨_, rfl, .inl ⟨rfl, rfl, fun _ => .inl (by rw [hpc]; rfl), (fun h => by cases h), ?_⟩⟩
      intro b hb
      cases hb
      exact verifyAcknowledgement_verified hv
  | verified a =>
    obtain ⟨d', hd', hs⟩ := attempt_stays d (transaction cfg (commitDelivery cfg clk d.row d.worker a))
      (fun a => { d with pc := .done (.ok a) }) w (fun a => d.stays_done (.ok a))
    exact ⟨d', hd', .inl hs⟩
  | done =>
    refine ⟨_, rfl, .inl ⟨rfl, rfl, fun h => .inl h, ?_, ?_⟩⟩
    · intro h
      rw [hpc] at h
      cases h
    · intro a h
      rw [hpc] at h
      cases h

/-! Runs -/

theorem Delivery.Ok.later {l' : Ledger} (h : d.Ok cfg l)
    (hl : l.core.Later l'.core) : d.Ok cfg l' := by
  refine { h with stored := ?_ }
  obtain ⟨e, he, hpay, hfence, hcross⟩ := h.stored
  obtain ⟨e', he', hlater⟩ := hl.entitlements _ e he
  have h1 := hlater.fence
  exact ⟨e', he', hlater.payload.trans hpay, by omega, fun hc => hlater.crossed (hcross hc)⟩

theorem step_inv (h : SysInv cfg s) (e : Event) : SysInv cfg (step cfg s e) := by
  have hmoves := step_moves h e
  have hlater := moves_later hmoves
  refine ⟨moves_inv h.core hmoves, ?_⟩
  intro tid d hd
  -- a delivery this event leaves alone
  have hkept : s.deliveries tid = some d → d.Ok cfg (step cfg s e).ledger :=
    fun h' => (h.deliveries tid d h').later hlater
  replace hd : deliveryAfter cfg s e tid = some d := hd
  unfold deliveryAfter at hd
  split at hd
  · rename_i t worker oid ha
    split at hd
    · obtain ⟨row, hrow, rfl⟩ := Option.map_eq_some_iff.mp hd
      have hkey : row.payload.orderId = oid := (Table.get_eq_some.mp hrow).2
      obtain ⟨e', he', hl⟩ := hlater.entitlements oid row hrow
      refine ⟨⟨e', ?_, hl.payload, hl.fence, hl.crossed⟩, ?_, ?_⟩
      · rw [hkey]
        exact he'
      · intro hp
        cases hp
      · intro a ha'
        cases ha'
    · exact hkept hd
  · rename_i t ans ha
    split at hd
    · rename_i htid
      subst htid
      split at hd
      · cases hd
      · rename_i d₀ hd₀
        have hok := h.deliveries tid d₀ hd₀
        obtain ⟨d', hres, hcase⟩ := deliverStep_cases cfg e.clk ans d₀ (s.world e) rfl
        rw [hres] at hd
        cases hd
        have hok' := hok.later hlater
        rcases hcase with hstay | hauth
        · -- the copy is the same
          refine ⟨?_, ?_, ?_⟩
          · rw [hstay.row]
            exact hok'.stored
          · intro hp
            rw [hstay.row]
            rcases hstay.past hp with hpast | hread
            · exact hok.past hpast
            · rw [hread]
              rfl
          · intro a ha'
            rw [Delivery.Verified, hstay.row]
            exact hstay.verified a ha'
        · -- the copy now says authorized, and so does the stored row
          obtain ⟨m, hm, hw'⟩ := hauth.committed
          have hledger : (step cfg s e).ledger = bumpSequence m := by
            show (ran cfg s e).conn.committed = _
            unfold ran
            rw [ha]
            simp only [hd₀]
            rw [hw']
            rfl
          obtain ⟨x, hx, hholds, hphase, -, hu⟩ := authorizeCrossing_ok hm
          have hstored := (updateEntitlement_get hu hx).2
          obtain ⟨y, hy, hpay, hfence, -⟩ := hok.stored
          have hxy : some x = some y := hx.symm.trans hy
          cases hxy
          rw [hauth.next]
          refine ⟨⟨x.withPhase .crossingAuthorized, ?_, hpay, hfence, fun _ => rfl⟩, fun _ => rfl, ?_⟩
          · rw [hledger]
            exact hstored
          · intro a ha'
            cases ha'
    · exact hkept hd
  · exact hkept hd

theorem initial_inv (cfg : Config) : SysInv cfg (initial cfg) where
  core := fresh_inv cfg
  deliveries tid d hd := by cases hd

theorem reachable_inv (h : Reachable (step cfg) (initial cfg) s) : SysInv cfg s :=
  h.invariant (SysInv cfg) (initial_inv cfg) (fun _ e hs => step_inv hs e)

theorem run_later (h : SysInv cfg s) (es : List Event) :
    s.ledger.core.Later (run (step cfg) s es).ledger.core := by
  induction es generalizing s with
  | nil => exact .refl _
  | cons e es ih => exact (moves_later (step_moves h e)).trans (ih (step_inv h e))

theorem run_inv (h : SysInv cfg s) (es : List Event) : SysInv cfg (run (step cfg) s es) := by
  induction es generalizing s with
  | nil => exact h
  | cons e es ih => exact ih (step_inv h e)

/-! A sale on a toy configuration

The hashes are short polynomials of what they are given, in as many hex digits as the
schema asks of a delivery receipt; they tell the documents of this run apart. -/

namespace Demo

def hexDigits : Nat → Nat → List Char
  | 0, _ => []
  | k + 1, n => Char.ofNat (if n % 16 < 10 then 48 + n % 16 else 87 + n % 16) :: hexDigits k (n / 16)

def firstByte (s : String) : Nat := s.toByteArray.data.toList.head?.elim 0 (fun b => b.toNat)

def valueDigest : Value → Nat
  | .null => 1
  | .bool b => if b then 2 else 3
  | .int n => 4 + n.natAbs
  | .str s => firstByte s
  | .time t => 6 + t.natAbs
  | .identity i => 7 + i.generation

def digest : Doc → Nat
  | .text s => firstByte s
  | .joined ps => ps.foldl (fun h v => (h * 257 + valueDigest v) % 2 ^ 32) 8
  | .obj _ fs => fs.foldl (fun h f => (h * 257 + valueDigest f.2) % 2 ^ 32) 9

def mac (d : Doc) : String := String.ofList (hexDigits 4 (digest d))

def sha256 : Doc → String
  | .obj dom fs => String.ofList (List.replicate 60 '0' ++ hexDigits 4 (digest (.obj dom fs)))
  | d => mac d

def signature (d : Doc) : String :=
  String.ofList (Char.ofNat (digest d % 26 + 97) :: List.replicate 87 'A')

def identity : Identity := ⟨"g", "k", 1, "p", "a"⟩

def config : Config :=
  { environment := "t", merchantId := "m", recipient := "r", quoteSeconds := 300, intentSeconds := 60,
    identity, hasSigningKey := true, sha256, settlementMac := mac,
    verifyAck := fun _ d sig => decide (firstByte sig = digest d % 26 + 97), signRevocation := signature,
    issuanceRoot := fun l => mac (.joined [.int l.sequence, .int (rowCount l)]),
    schemaDigest := fun s => mac (.joined [.int (snapshotTables.filter s.tables).length]),
    terminalRoot := fun is => mac (.joined [.int is.length]) }

def event (t : Time) (a : Act) : Event := ⟨0, fun _ => t, [], a⟩

def payer : String := "0x1111111111111111111111111111111111111111"

/-- One x402 order `o` quoted, authorized by intent `i`, settled and finalized. -/
def sale : List Event :=
  [event 0 (.tx (.createOrder "o" "c" .x402 "a@b.co" "A")),
   event 1 (.tx (.prepareX402Intent "i" "o" "p" "n" 10000000 (some payer))),
   event 2 (.tx (.recordSettlementResult "i"
     ⟨some "t", some "e", some "s", some 2, some payer, some "b"⟩ "a")),
   event 3 (.tx (.finalizeX402Intent "i"))]

def payload : EntitlementPayload :=
  { orderId := "o", source := "x402", sourceId := sourceId config "o", proofHash := sha256 (.text "p"),
    txHash := "t", evidenceHash := "e", payer, network := baseNetwork, asset := baseUsdc,
    amountMinor := 10000000, product := "growthmap", majorVersion := 1 }

def license : String := "gm_00000000000000000000000000000001"

def receipt : String :=
  sha256 (.obj "" [("license_id", .str license), ("payload_digest", .str (payloadDigest config payload)),
    ("signer_identity", .identity identity), ("source", .str "x402"), ("source_id", .str (sourceId config "o"))])

def ack : EntitlementAck :=
  { source := "x402", sourceId := sourceId config "o", payloadDigest := payloadDigest config payload,
    licenseId := license, authorityId := "g", signerIdentity := identity, deliveryReceipt := receipt,
    ackSignature := signature (.obj "" [("authority_id", .str "g"), ("delivery_receipt", .str receipt),
      ("license_id", .str license), ("payload_digest", .str (payloadDigest config payload)),
      ("signer_identity", .identity identity), ("source", .str "x402"),
      ("source_id", .str (sourceId config "o"))]) }

def answer (r : Readback) : Answer := ⟨some identity, some identity, r⟩

/-- A worker claims the order's row under a lease and takes a copy. -/
def claim (t : Time) (leaseSeconds : Int) : List Event :=
  [event t (.tx (.claimOutbox "w" leaseSeconds none)), event t (.take 0 "w" "o")]

/-- The next `n` steps of its delivery. -/
def deliver (t : Time) (r : Readback) (n : Nat) : List Event :=
  List.replicate n (event t (.deliver 0 (answer r)))

def refund (t : Time) : List Event := [event t (.tx (.adminTransition "o" .refund none))]

def after (es : List Event) : Sys := run (step config) (initial config) es

theorem reachable_after (es : List Event) : Reachable (step config) (initial config) (after es) := ⟨es, rfl⟩

def delivered : List Event := sale ++ claim 4 30 ++ deliver 4 (.ack ack) 9

example : orderState (after delivered).ledger "o" = some .licenseIssued := by decide +kernel

end Demo

end GrowthMap.Payments
